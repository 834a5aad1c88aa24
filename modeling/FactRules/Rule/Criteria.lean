import FactRules.Fact.Store
import FactRules.Rule.Concept

/-!
# Criteria

A criterion asks whether the fact under a key lies in a range whose ends belong to it. Criteria are
a list of criterions for one concept, all of which have to hold on a chain of stores.
-/

namespace FactRules

/-- The fact under `key` lies between `lower` and `upper`, both included. -/
structure Criterion where
  key : String
  lower : Double
  upper : Double
deriving DecidableEq

namespace Criterion

/-- Whether a value lies in the range. A value or an end that is no number never does. -/
def accepts (criterion : Criterion) (value : Double) : Bool :=
  criterion.lower.le value && value.le criterion.upper

/-- Whether the criterion holds on a chain of stores. -/
def holds (criterion : Criterion) (chain : Chain) : Bool :=
  criterion.accepts (chain.get criterion.key).toDouble

/-- The key and the range. -/
def text (criterion : Criterion) : String :=
  criterion.key ++ " in [" ++ criterion.lower.text ++ ", " ++ criterion.upper.text ++ "]"

end Criterion

/-- Criterions for a concept, all of which have to hold. -/
structure Criteria where
  concept : Concept
  predicates : List Criterion
deriving DecidableEq

namespace Criteria

/-- Whether all criterions hold on a chain of stores. -/
def holds (criteria : Criteria) (chain : Chain) : Bool :=
  criteria.predicates.all (·.holds chain)

/-- How many criterions there are: the more, the more specific. -/
def specificity (criteria : Criteria) : Nat := criteria.predicates.length

/-- The concept and the criterions. -/
def text (criteria : Criteria) : String :=
  "concept " ++ criteria.concept.name ++ " criterion " ++
    " ".intercalate (criteria.predicates.map Criterion.text)

end Criteria

end FactRules
