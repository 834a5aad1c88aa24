import FactRules.Rule.Criteria

/-!
# Rules and rule sets

A rule answers a concept with a response where its criteria hold. A response has actions for now and
actions for afterwards. A `RuleSet` lists its rules by falling specificity; rules of one specificity
keep the order in which they were given (`RuleSet.ofList`).
-/

namespace FactRules

/-- Which store an action writes to: the one all agents share, or the store of the agent that the
action is applied for. -/
inductive Scope where
  | everyone
  | agent
deriving DecidableEq, Repr

/-- What a response does when it is chosen: it offers texts, one of which the host shows, or writes
a fact that may expire after `ttl` seconds. -/
inductive Action where
  | randomText (choices : List String)
  | addFact (scope : Scope) (key : String) (value : Double) (ttl : Option Double)
deriving DecidableEq

/-- Actions, in the order in which they are applied. -/
abbrev ActionSet := List Action

/-- All texts that the actions offer, in order. -/
def ActionSet.choices (actions : ActionSet) : List String :=
  actions.flatMap fun
    | .randomText choices => choices
    | .addFact .. => []

/-- What is done in answer to a query: at once, and later when the host asks for it. -/
structure Response where
  now : ActionSet
  after : ActionSet
deriving DecidableEq

/-- A response and the criteria it is given under. -/
structure Rule where
  id : String
  criteria : Criteria
  response : Response
deriving DecidableEq

namespace Rule

/-- The concept a rule answers. -/
def concept (rule : Rule) : Concept := rule.criteria.concept

/-- How many criterions a rule has. -/
def specificity (rule : Rule) : Nat := rule.criteria.specificity

/-- The id and the criteria. -/
def text (rule : Rule) : String := "Rule " ++ rule.id ++ " criteria " ++ rule.criteria.text

end Rule

/-- Rules by falling specificity. -/
structure RuleSet where
  rules : List Rule
  sorted : rules.Pairwise fun a b => b.specificity ≤ a.specificity

namespace RuleSet

/-- The rule set of a list of rules. The sort is stable. -/
def ofList (rules : List Rule) : RuleSet where
  rules := rules.mergeSort fun a b => decide (b.specificity ≤ a.specificity)
  sorted :=
    (List.pairwise_mergeSort
      (fun a b c hab hbc => by simp at hab hbc ⊢; omega)
      (fun a b => by simp; omega) rules).imp (by simp)

/-- A rule set holds the rules it was made of, each as often as it was given. -/
theorem perm_ofList (rules : List Rule) : (ofList rules).rules.Perm rules :=
  List.mergeSort_perm ..

/-- Rules of one specificity keep their order. -/
theorem filter_ofList (rules : List Rule) (n : Nat) :
    (ofList rules).rules.filter (·.specificity = n) = rules.filter (·.specificity = n) := by
  have sorted : (rules.filter (·.specificity = n)).Pairwise
      fun a b => decide (b.specificity ≤ a.specificity) = true := by
    refine List.Pairwise.imp_of_mem ?_ (List.pairwise_of_forall fun _ _ => trivial)
    intro a b ha hb _
    simp_all
  have kept : (rules.filter (·.specificity = n)).Sublist (ofList rules).rules :=
    List.sublist_mergeSort (fun a b c hab hbc => by simp at hab hbc ⊢; omega)
      (fun a b => by simp; omega) sorted List.filter_sublist
  refine (List.Sublist.eq_of_length ?_ ((perm_ofList rules).filter _).length_eq.symm).symm
  simpa using kept.filter (·.specificity = n)

/-- The number of rules. -/
def size (rules : RuleSet) : Nat := rules.rules.length

/-- The rules for one concept. -/
def forConcept (rules : RuleSet) (concept : Concept) : List Rule :=
  rules.rules.filter (·.concept = concept)

end RuleSet

end FactRules
