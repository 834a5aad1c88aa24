/-!
# Concepts

Why a query is made. Every rule answers one concept.
-/

namespace FactRules

/-- The occasion of a query. -/
inductive Concept where
  | thinkIdle
  | thinkJustAte
  | thinkStartingEating
  | evolve
deriving DecidableEq, Repr

namespace Concept

/-- All concepts, in the order of their numbers. -/
def all : List Concept := [thinkIdle, thinkJustAte, thinkStartingEating, evolve]

/-- The name of a concept: its words in capitals, joined by underscores. -/
def name : Concept → String
  | thinkIdle => "THINK_IDLE"
  | thinkJustAte => "THINK_JUST_ATE"
  | thinkStartingEating => "THINK_STARTING_EATING"
  | evolve => "EVOLVE"

/-- The number of a concept. -/
def number : Concept → Nat
  | thinkIdle => 1
  | thinkJustAte => 2
  | thinkStartingEating => 3
  | evolve => 4

/-- The concept of a name. -/
def ofName? (name : String) : Option Concept := all.find? (·.name = name)

/-- Concepts are told by their names. -/
theorem ofName?_name (concept : Concept) : ofName? concept.name = some concept := by
  cases concept <;> decide

end Concept

end FactRules
