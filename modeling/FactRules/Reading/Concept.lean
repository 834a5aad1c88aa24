import FactRules.Rule.Concept
import FactRules.Text.SnakeCase
import FactRules.Value

/-!
# Concepts as texts

A concept is written by its name, in camel case or in snake case, with letters of either case.
-/

namespace FactRules

/-- Why a value names no concept. -/
inductive ConceptError where
  | notText (value : Value)
  | unknown (name : String)

/-- The wording of each error. -/
def ConceptError.message : ConceptError → String
  | notText value => value.shownAfter "concept must be a string, got "
  | unknown name => "unknown concept \"" ++ name ++ "\""

namespace Concept

/-- The name in capitals and snake case, if it is an ASCII text then. -/
def capitalName? (name : List Char) : Option String :=
  ((Text.snakeCase name).mapM Text.upperAscii?).map fun capitals => String.ofList capitals.flatten

/-- Reads a concept from a value, which has to be a text. -/
def ofValue : Value → Except ConceptError Concept
  | .str name =>
    match (capitalName? name.toList).bind ofName? with
    | some concept => .ok concept
    | none => .error (.unknown name)
  | value => .error (.notText value)

end Concept

end FactRules
