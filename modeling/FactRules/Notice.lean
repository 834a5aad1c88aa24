import FactRules.Agent
import FactRules.Rule.RuleSet
import FactRules.Value

/-!
# Notices

What happens while documents are read, queries are answered and facts are kept is reported by
notices. A notice has a level, the part of the library that speaks, and a wording.
-/

namespace FactRules

/-- How important a notice is. -/
inductive Level where
  | debug
  | info
  | error
deriving DecidableEq, Repr

/-- The part of the library that gives a notice. -/
inductive Speaker where
  | documents
  | queries
  | keeper
deriving DecidableEq, Repr

/-- Something worth reporting. -/
inductive Notice where
  | rulesLoaded (authored expanded responses : Nat)
  | queryStarted (stores : Nat) (concept : Concept)
  | chainLoaded (chain : Chain)
  | ruleChecked (rule : Rule)
  | ruleMatched (id : String)
  | nothingMatched (concept : Concept)
  | ruleChosen (id : String) (candidates : Nat)
  | responded (agent : Option AgentId) (concept : Concept) (choices : List String)
  | noAgent (key : String)
  | unregistered (agent : AgentId) (key : String)
  | expiryScheduled (key : String) (owner : Option AgentId) (ttl : Double)
  | expired (key : String) (owner : Option AgentId)
  | ticked (events facts : Nat) (now : Double)

namespace Notice

/-- The level of a notice. -/
def level : Notice → Level
  | rulesLoaded .. => .info
  | noAgent _ | unregistered .. => .error
  | _ => .debug

/-- Who gives a notice. -/
def speaker : Notice → Speaker
  | rulesLoaded .. => .documents
  | queryStarted .. | chainLoaded _ | ruleChecked _ | ruleMatched _ | nothingMatched _
  | ruleChosen .. => .queries
  | responded .. | noAgent _ | unregistered .. | expiryScheduled .. | expired .. | ticked .. =>
    .keeper

/-- The wording of a notice. -/
def message : Notice → String
  | rulesLoaded authored expanded responses =>
    "loaded " ++ toString authored ++ " rules (" ++ toString expanded ++
      " with alternatives expanded) and " ++ toString responses ++ " responses"
  | queryStarted stores concept =>
    "running fact query with " ++ toString stores ++ " dbs and concept " ++ concept.name
  | chainLoaded chain => "query fact dbs loaded: " ++ chain.text
  | ruleChecked rule => "checking rule " ++ rule.text
  | ruleMatched id => "rule " ++ id ++ " matches"
  | nothingMatched concept => "no matches found for " ++ concept.name
  | ruleChosen id candidates =>
    "chose rule " ++ id ++ " out of " ++ toString candidates ++ " matches"
  | responded agent concept choices =>
    ownerText agent ++ " responding to " ++ concept.name ++ ": " ++
      (Value.list (choices.map .str)).display
  | noAgent key => "no agent provided for entity fact insert of " ++ key
  | unregistered agent key =>
    "agent " ++ agent.text ++ " does not have a fact store, dropping " ++ key
  | expiryScheduled key owner ttl =>
    "fact " ++ key ++ " for " ++ ownerText owner ++ " expires in " ++ ttl.text ++ "s"
  | expired key owner => "expiring fact " ++ key ++ " for " ++ ownerText owner
  | ticked events facts now =>
    "processed " ++ toString events ++ " events and expired " ++ toString facts ++
      " facts at " ++ now.text

end Notice

end FactRules
