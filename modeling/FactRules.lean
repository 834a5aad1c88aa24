import FactRules.Keeper.Site
import FactRules.Reading.Load
import FactRules.Proofs.Query.MostSpecific
import FactRules.Proofs.Query.Fallback
import FactRules.Proofs.Schedule.HeapOrder
import FactRules.Proofs.Schedule.Plan
import FactRules.Proofs.Schedule.Agenda
import FactRules.Proofs.Schedule.DueTime
import FactRules.Proofs.Schedule.Undefined
import FactRules.Proofs.Keeper.Fate
import FactRules.Proofs.Keeper.Chronicle
import FactRules.Proofs.Keeper.LatestWrite
import FactRules.Proofs.Keeper.Ledger
import FactRules.Proofs.Keeper.Request
import FactRules.Proofs.Keeper.Writes
import FactRules.Proofs.Keeper.Ticks
import FactRules.Proofs.Keeper.Sharing
import FactRules.Proofs.Keeper.Registration
import FactRules.Proofs.Keeper.SharedFate
import FactRules.Proofs.Keeper.Blocking
import FactRules.Proofs.Keeper.Outlook
import FactRules.Proofs.Keeper.Host
import FactRules.Proofs.Keeper.Isolation
import FactRules.Proofs.Keeper.Respond
import FactRules.Proofs.Binary.Rounding
import FactRules.Proofs.Binary.Order
import FactRules.Proofs.Rule.Criteria
import FactRules.Proofs.Text.Ascii
import FactRules.Proofs.Text.Words
import FactRules.Proofs.Text.Spacing
import FactRules.Proofs.Text.LowerCase
import FactRules.Proofs.Text.Numerals
import FactRules.Proofs.Text.SnakeCase
import FactRules.Proofs.Text.CamelCase
import FactRules.Proofs.Fact.TextValue
import FactRules.Proofs.Fact.TextEquality
import FactRules.Proofs.Fact.Collisions
import FactRules.Proofs.Reading.Success
import FactRules.Proofs.Reading.Expansion
import FactRules.Proofs.Reading.Authored
import FactRules.Proofs.Reading.Meaning
import FactRules.Proofs.Reading.Grammar
import FactRules.Proofs.Reading.Variants
import FactRules.Proofs.Reading.Forms
import FactRules.Proofs.Reading.Requirements
import FactRules.Proofs.Reading.ActionText
import FactRules.Proofs.Reading.ConceptNames
import FactRules.Proofs.Reading.Bounds
import FactRules.Proofs.Toml.DistinctKeys
import FactRules.Proofs.Settings.DeepOverride
import FactRules.Proofs.Settings.Load
import FactRules.Proofs.Settings.Conflict
