import FactRules.Fact.Bank
import FactRules.Notice
import FactRules.Query.Dice

/-!
# Queries

A query asks for the best response to a concept, given a chain of stores. Among the rules of the
concept that hold, those of the highest specificity match, and one of them is drawn.

The search goes through the rules from the most specific on and stops as soon as it has left the
specificity of the first rule that held (`RuleSet.visits`). The stores of a query are borrowed, so a
query sees what was written to them after it was made. Facts added to the query itself are asked
last.
-/

namespace FactRules

/-- A rule that a search came to: its place in the rule set, and whether it held. -/
structure Visit where
  position : Nat
  rule : Rule
  holds : Bool

namespace RuleSet

/-- The rules that a search for a concept comes to in a list that starts at `position`. Once rules
of specificity `level` held, the search ends at the first rule that is less specific. -/
def visitsFrom (concept : Concept) (chain : Chain) : Option Nat → Nat → List Rule → List Visit
  | _, _, [] => []
  | level, position, rule :: rest =>
    if level.any (rule.specificity < ·) then []
    else if rule.concept ≠ concept then visitsFrom concept chain level (position + 1) rest
    else
      let holds := rule.criteria.holds chain
      let level := if holds then some (level.getD rule.specificity) else level
      ⟨position, rule, holds⟩ :: visitsFrom concept chain level (position + 1) rest

/-- The rules that a search for a concept comes to. -/
def visits (rules : RuleSet) (concept : Concept) (chain : Chain) : List Visit :=
  visitsFrom concept chain none 0 rules.rules

/-- The visits of the rules that match a concept on a chain. -/
def hits (rules : RuleSet) (concept : Concept) (chain : Chain) : List Visit :=
  (rules.visits concept chain).filter (·.holds)

/-- The rules that match a concept on a chain, all of one specificity. -/
def matching (rules : RuleSet) (concept : Concept) (chain : Chain) : List Rule :=
  (rules.hits concept chain).map (·.rule)

/-- A search comes to rules of the list only. -/
theorem mem_of_mem_visitsFrom {concept : Concept} {chain : Chain} {level : Option Nat}
    {position : Nat} {rules : List Rule} {visit : Visit}
    (h : visit ∈ visitsFrom concept chain level position rules) : visit.rule ∈ rules := by
  fun_induction visitsFrom concept chain level position rules with
  | case1 => cases h
  | case2 => cases h
  | case3 _ _ _ _ _ _ ih => exact List.mem_cons_of_mem _ (ih h)
  | case4 level position rule rest _ _ _ _ ih =>
    cases h with
    | head => exact List.mem_cons_self ..
    | tail _ h => exact List.mem_cons_of_mem _ (ih h)

/-- Rules that match are rules of the set. -/
theorem mem_of_mem_matching {rules : RuleSet} {concept : Concept} {chain : Chain} {rule : Rule}
    (h : rule ∈ rules.matching concept chain) : rule ∈ rules.rules := by
  obtain ⟨visit, hvisit, rfl⟩ := List.mem_map.1 h
  exact mem_of_mem_visitsFrom (List.mem_filter.1 hvisit).1

end RuleSet

/-- A concept, the stores to ask in turn, and facts to ask for after them. -/
structure Query where
  concept : Concept
  stores : List StoreRef
  extra : FactStore

/-- What a query is answered with: the response that was chosen, the numbers of outcomes that were
drawn from, the dice afterwards, and what there is to report. -/
structure Answer where
  response : Option Response
  asked : List Nat
  dice : Dice
  notices : List Notice

namespace Query

/-- A query without stores and facts. -/
def ofConcept (concept : Concept) : Query := ⟨concept, [], ∅⟩

/-- Adds a fact of the query itself. -/
def addFact (query : Query) (key : String) (value : Double) : Query :=
  { query with extra := query.extra.add key value }

/-- Adds a store, to be asked after those added before. -/
def addStore (query : Query) (store : StoreRef) : Query :=
  { query with stores := query.stores ++ [store] }

/-- The chain a query looks facts up in. -/
def chain (query : Query) (bank : Bank) : Chain := bank.chain query.stores ++ [query.extra]

/-- The rules that match a query. -/
def matching (query : Query) (rules : RuleSet) (bank : Bank) : List Rule :=
  rules.matching query.concept (query.chain bank)

/-- What there is to report of the search for matching rules. -/
def searchNotices (query : Query) (rules : RuleSet) (bank : Bank) : List Notice :=
  let chain := query.chain bank
  .queryStarted query.stores.length query.concept :: .chainLoaded chain ::
    (rules.visits query.concept chain).flatMap fun visit =>
      .ruleChecked visit.rule :: if visit.holds then [.ruleMatched visit.rule.id] else []

/-- Answers a query: draws one of the matching rules, if there are any. -/
def run (query : Query) (rules : RuleSet) (bank : Bank) (dice : Dice) : Answer :=
  let searched := query.searchNotices rules bank
  match query.matching rules bank with
  | [] => ⟨none, [], dice, searched ++ [.nothingMatched query.concept]⟩
  | first :: others =>
    let candidates := first :: others
    let (pick, dice) := dice.roll candidates.length (by simp [candidates])
    let rule := candidates[pick]
    ⟨some rule.response, [candidates.length], dice,
      searched ++ [.ruleChosen rule.id candidates.length]⟩

/-- A response that a query is answered with is that of a rule of the set. -/
theorem mem_of_run {query : Query} {rules : RuleSet} {bank : Bank} {dice : Dice}
    {response : Response} (h : (query.run rules bank dice).response = some response) :
    ∃ rule ∈ rules.rules, rule.response = response := by
  rw [run] at h
  split at h
  · cases h
  · next first others hmatching =>
    have hmem : ∀ rule ∈ first :: others, rule ∈ rules.rules := by
      intro rule hrule
      rw [← hmatching] at hrule
      exact RuleSet.mem_of_mem_matching hrule
    exact ⟨_, hmem _ (List.getElem_mem ..), Option.some.inj h⟩

/-- Whether criteria are for the query's concept and hold on its stores. Facts of the query itself
are not asked. -/
def holds (query : Query) (criteria : Criteria) (bank : Bank) : Bool :=
  decide (criteria.concept = query.concept) && criteria.holds (bank.chain query.stores)

end Query

end FactRules
