import FactRules.Query.Basic

/-!
# The search finds the most specific tier

`RuleSet.visitsFrom` walks through a list that falls in specificity and stops when it has left the
specificity of the first rule that held. The plain search looks at every rule that was given:
`Rule.answers` says which rules answer a query, `mostSpecific` keeps those with the most criterions.
`RuleSet.matching_eq` says that the walk finds what the plain search finds. The sort before it
changes nothing (`Query.matching_ofList`), and `Query.answers_by_mostSpecific` says all of this of a
query and of what the query is answered with.

The loop carries the specificity of the first rule that held. Before there is one, the walk is
described by the maximum over the rules that answer (`RuleSet.visitsFrom_none`), afterwards by the
carried number (`RuleSet.visitsFrom_some`).
-/

namespace FactRules

/-! ## The plain search -/

/-- What a query finds under a key: the value of the first store that has the key, otherwise that
of the query's own facts, otherwise zero. -/
def valueFor (own : FactStore) (key : String) : List FactStore → Single
  | [] => (own.lookup? key).getD .zero
  | store :: others => (store.lookup? key).getD (valueFor own key others)

/-- Whether a rule is for a concept and all its criterions accept what is found under their keys. -/
def Rule.answers (concept : Concept) (found : String → Single) (rule : Rule) : Bool :=
  decide (rule.concept = concept) &&
    rule.criteria.predicates.all fun criterion =>
      criterion.accepts (found criterion.key).toDouble

/-- The rules whose number of criterions is the greatest, in their order. -/
def mostSpecific (rules : List Rule) : List Rule :=
  rules.filter fun rule => (rules.map Rule.specificity).max? = some rule.specificity

namespace Query

/-- What a query finds under a key. -/
def found (query : Query) (bank : Bank) (key : String) : Single :=
  valueFor query.extra key (query.stores.map bank.get)

/-- The rules of a list that answer a query. -/
def answering (query : Query) (bank : Bank) (rules : List Rule) : List Rule :=
  rules.filter (Rule.answers query.concept (query.found bank))

end Query

/-! ## Chains -/

/-- A chain that ends in the query's own facts answers with what the query finds. -/
theorem Chain.get_append_own (own : FactStore) (key : String) (stores : List FactStore) :
    Chain.get (stores ++ [own]) key = valueFor own key stores := by
  induction stores with
  | nil => simp [Chain.get, Chain.lookup?, valueFor]
  | cons store others ih =>
    have hcons : Chain.get (store :: (others ++ [own])) key =
        (store.lookup? key).getD (Chain.get (others ++ [own]) key) := by
      cases h : store.lookup? key <;> simp [Chain.get, Chain.lookup?, h]
    rw [List.cons_append, hcons, ih, valueFor]

/-- A rule answers what its chain finds exactly if it is for the concept and holds on the chain. -/
theorem Rule.answers_chain (concept : Concept) (chain : Chain) (rule : Rule) :
    rule.answers concept chain.get =
      (decide (rule.concept = concept) && rule.criteria.holds chain) := rfl

/-- What a query finds is what its chain answers with. -/
theorem Query.found_eq (query : Query) (bank : Bank) :
    query.found bank = (query.chain bank).get := by
  funext key
  exact (Chain.get_append_own query.extra key _).symm

/-! ## The tier of a list -/

/-- The rules of the top tier are those of the list that no rule of the list is more specific
than. -/
theorem mem_mostSpecific {rules : List Rule} {rule : Rule} :
    rule ∈ mostSpecific rules ↔
      rule ∈ rules ∧ ∀ other ∈ rules, other.specificity ≤ rule.specificity := by
  simp only [mostSpecific, List.mem_filter, decide_eq_true_eq]
  refine and_congr_right fun hmem => ?_
  rw [List.max?_eq_some_iff]
  constructor
  · rintro ⟨-, h⟩ other hother
    exact h _ (List.mem_map_of_mem hother)
  · intro h
    refine ⟨List.mem_map_of_mem hmem, fun n hn => ?_⟩
    obtain ⟨other, hother, rfl⟩ := List.mem_map.1 hn
    exact h other hother

/-- Whoever has a rule has a most specific one. -/
theorem mostSpecific_eq_nil_iff {rules : List Rule} : mostSpecific rules = [] ↔ rules = [] := by
  refine ⟨fun h => Decidable.byContradiction fun hne => ?_, fun h => by subst h; rfl⟩
  obtain ⟨n, hn⟩ := Option.isSome_iff_exists.1
    (List.isSome_max?_of_ne_nil (l := rules.map Rule.specificity) (by simpa using hne))
  obtain ⟨rule, hrule, rfl⟩ := List.mem_map.1 (List.max?_mem hn)
  have : rule ∈ mostSpecific rules := List.mem_filter.2 ⟨hrule, by simpa using hn⟩
  simp [h] at this

/-- A list with a rule that no other one exceeds has the tier of that rule's specificity. -/
theorem mostSpecific_cons {rule : Rule} {rules : List Rule}
    (h : ∀ other ∈ rules, other.specificity ≤ rule.specificity) :
    mostSpecific (rule :: rules) =
      rule :: rules.filter (·.specificity = rule.specificity) := by
  have hmax : ((rule :: rules).map Rule.specificity).max? = some rule.specificity := by
    rw [List.max?_eq_some_iff]
    refine ⟨by simp, fun n hn => ?_⟩
    simp only [List.map_cons, List.mem_cons, List.mem_map] at hn
    rcases hn with rfl | ⟨other, hother, rfl⟩
    · exact Nat.le_refl _
    · exact h other hother
  simp only [mostSpecific, hmax, Option.some.injEq, List.filter_cons, decide_true, ↓reduceIte]
  simp [eq_comm]

/-- Lists with the same members have the same maximum. -/
theorem max?_congr {l m : List Nat} (h : ∀ n, n ∈ l ↔ n ∈ m) : l.max? = m.max? := by
  ext n
  rw [List.max?_eq_some_iff, List.max?_eq_some_iff, h]
  exact and_congr_right fun _ => forall_congr' fun k => by rw [h]

/-- Blocks that are empty unless a test is passed are the blocks of the items that pass it. -/
theorem flatMap_eq_flatMap_filter {α β : Type} {l : List α} {p : α → Bool} {f g : α → List β}
    (h : ∀ a ∈ l, g a = if p a then f a else []) : l.flatMap g = (l.filter p).flatMap f := by
  induction l with
  | nil => rfl
  | cons a l ih =>
    rw [List.flatMap_cons, ih fun b hb => h b (List.mem_cons_of_mem _ hb),
      h a (List.mem_cons_self ..)]
    cases ha : p a with
    | true => rw [if_pos rfl, List.filter_cons_of_pos ha, List.flatMap_cons]
    | false =>
      rw [if_neg Bool.false_ne_true, List.filter_cons_of_neg (by simp [ha])]
      rfl

/-- Of blocks of rules that each have one specificity, the tier has those of the greatest
specificity as a whole. -/
theorem mostSpecific_flatMap {ι : Type} {l : List ι} {block : ι → List Rule} {n : ι → Nat}
    (hne : ∀ i ∈ l, block i ≠ []) (hn : ∀ i ∈ l, ∀ rule ∈ block i, rule.specificity = n i) :
    mostSpecific (l.flatMap block) =
      (l.filter fun i => (l.map n).max? = some (n i)).flatMap block := by
  have hmem : ∀ m, m ∈ (l.flatMap block).map Rule.specificity ↔ m ∈ l.map n := by
    intro m
    rw [List.mem_map, List.mem_map]
    constructor
    · rintro ⟨rule, hrule, rfl⟩
      obtain ⟨i, hi, hrule⟩ := List.mem_flatMap.1 hrule
      exact ⟨i, hi, (hn i hi rule hrule).symm⟩
    · rintro ⟨i, hi, rfl⟩
      obtain ⟨rule, hrule⟩ := List.exists_mem_of_ne_nil _ (hne i hi)
      exact ⟨rule, List.mem_flatMap.2 ⟨i, hi, hrule⟩, hn i hi rule hrule⟩
  have hblock : ∀ i ∈ l,
      (block i).filter (fun rule => decide ((l.map n).max? = some rule.specificity)) =
        if decide ((l.map n).max? = some (n i)) then block i else [] := by
    intro i hi
    simp only [decide_eq_true_eq]
    split
    · next hgreatest =>
      refine List.filter_eq_self.2 fun rule hrule => ?_
      rw [hn i hi rule hrule]
      exact decide_eq_true hgreatest
    · next hless =>
      refine List.filter_eq_nil_iff.2 fun rule hrule => ?_
      rw [hn i hi rule hrule, decide_eq_true_eq]
      exact hless
  rw [mostSpecific, max?_congr hmem, List.filter_flatMap]
  exact flatMap_eq_flatMap_filter hblock

/-! ## The walk -/

namespace RuleSet

variable {concept : Concept} {chain : Chain}

/-- The rules that held on a walk. -/
def held (visits : List Visit) : List Rule := (visits.filter (·.holds)).map (·.rule)

/-- A walk takes of each rule whether its criteria hold. -/
theorem holds_of_mem_visitsFrom {level : Option Nat} {position : Nat} {rules : List Rule}
    {visit : Visit} (h : visit ∈ visitsFrom concept chain level position rules) :
    visit.holds = visit.rule.criteria.holds chain := by
  fun_induction visitsFrom concept chain level position rules with
  | case1 => cases h
  | case2 => cases h
  | case3 _ _ _ _ _ _ ih => exact ih h
  | case4 level position rule rest _ _ _ _ ih =>
    cases h with
    | head => rfl
    | tail _ h => exact ih h

/-- The criteria of a rule that matches hold. -/
theorem holds_of_mem_matching {rules : RuleSet} {rule : Rule}
    (h : rule ∈ rules.matching concept chain) : rule.criteria.holds chain = true := by
  obtain ⟨visit, hvisit, rfl⟩ := List.mem_map.1 h
  obtain ⟨hwalk, hholds⟩ := List.mem_filter.1 hvisit
  exact (holds_of_mem_visitsFrom hwalk).symm.trans hholds

/-- Once rules of specificity `n` held, the walk finds the other ones of that specificity: all that
come have at most `n` criterions, and it ends at the first one with fewer. -/
theorem visitsFrom_some {n : Nat} (position : Nat) {rules : List Rule}
    (sorted : rules.Pairwise fun a b => b.specificity ≤ a.specificity)
    (below : ∀ rule ∈ rules, rule.specificity ≤ n) :
    held (visitsFrom concept chain (some n) position rules) =
      (rules.filter (Rule.answers concept chain.get)).filter (·.specificity = n) := by
  induction rules generalizing position with
  | nil => simp [visitsFrom, held]
  | cons rule rest ih =>
    obtain ⟨hrule, hrest⟩ := List.pairwise_cons.1 sorted
    have hn : rule.specificity ≤ n := below rule (by simp)
    have ih := ih (position + 1) hrest fun r hr => below r (by simp [hr])
    rw [visitsFrom]
    by_cases hlt : rule.specificity < n
    · -- the walk ends here, and nothing later reaches `n`
      have hnone : ∀ r ∈ rule :: rest, ¬ r.specificity = n := by
        intro r hr
        rcases List.mem_cons.1 hr with rfl | hr
        · omega
        · have := hrule r hr
          omega
      have : ((rule :: rest).filter (Rule.answers concept chain.get)).filter
          (·.specificity = n) = [] := by
        refine List.filter_eq_nil_iff.2 fun r hr => ?_
        simpa using hnone r (List.mem_filter.1 hr).1
      simp [hlt, held, this]
    · have heq : rule.specificity = n := by omega
      by_cases hconcept : rule.concept = concept
      · cases hholds : rule.criteria.holds chain
        · simpa [hlt, hconcept, hholds, held, Rule.answers_chain] using ih
        · simpa [hlt, hconcept, hholds, held, Rule.answers_chain, heq] using ih
      · simpa [hlt, hconcept, held, Rule.answers_chain] using ih

/-- Before any rule held, the walk finds the tier of the rules that answer. -/
theorem visitsFrom_none (position : Nat) {rules : List Rule}
    (sorted : rules.Pairwise fun a b => b.specificity ≤ a.specificity) :
    held (visitsFrom concept chain none position rules) =
      mostSpecific (rules.filter (Rule.answers concept chain.get)) := by
  induction rules generalizing position with
  | nil => simp [visitsFrom, held, mostSpecific]
  | cons rule rest ih =>
    obtain ⟨hrule, hrest⟩ := List.pairwise_cons.1 sorted
    have ih := ih (position + 1) hrest
    rw [visitsFrom]
    by_cases hanswers : rule.answers concept chain.get = true
    · obtain ⟨hconcept, hholds⟩ := by simpa [Rule.answers_chain] using hanswers
      rw [List.filter_cons_of_pos hanswers,
        mostSpecific_cons fun other hother => hrule other (List.mem_filter.1 hother).1,
        ← visitsFrom_some (position + 1) hrest hrule]
      simp [hconcept, hholds, held]
    · rw [List.filter_cons_of_neg hanswers, ← ih]
      by_cases hconcept : rule.concept = concept
      · have hholds : rule.criteria.holds chain = false := by
          simpa [Rule.answers_chain, hconcept] using hanswers
        simp [hconcept, hholds, held]
      · simp [hconcept]

/-- The tier of a list does not depend on whether the list is sorted first: its rules have one
specificity, and the sort keeps the order of such rules. -/
theorem mostSpecific_filter_ofList (p : Rule → Bool) (rules : List Rule) :
    mostSpecific ((ofList rules).rules.filter p) = mostSpecific (rules.filter p) := by
  have hperm := ((perm_ofList rules).filter p).map Rule.specificity
  unfold mostSpecific
  rw [max?_congr fun n => hperm.mem_iff]
  cases ((rules.filter p).map Rule.specificity).max? with
  | none =>
    exact (List.filter_eq_nil_iff.2 (by simp)).trans (List.filter_eq_nil_iff.2 (by simp)).symm
  | some n =>
    have hswap (l : List Rule) :
        (l.filter p).filter (fun rule => decide (some n = some rule.specificity)) =
          (l.filter (·.specificity = n)).filter p := by
      rw [List.filter_filter, List.filter_filter]
      refine List.filter_congr fun rule _ => ?_
      rw [Bool.and_comm]
      simp [eq_comm]
    rw [hswap, hswap, filter_ofList]

/-- The walk through a rule set finds what the plain search finds. -/
theorem matching_eq (rules : RuleSet) (concept : Concept) (chain : Chain) :
    rules.matching concept chain =
      mostSpecific (rules.rules.filter (Rule.answers concept chain.get)) :=
  visitsFrom_none 0 rules.sorted

end RuleSet

/-! ## Queries -/

namespace Query

/-- What matches a query is the tier of the rules that answer it. -/
theorem matching_eq (query : Query) (rules : RuleSet) (bank : Bank) :
    query.matching rules bank = mostSpecific (query.answering bank rules.rules) := by
  rw [matching, RuleSet.matching_eq, answering, found_eq]

/-- It does not depend on whether the rules are sorted first. -/
theorem matching_ofList (query : Query) (rules : List Rule) (bank : Bank) :
    query.matching (.ofList rules) bank = mostSpecific (query.answering bank rules) :=
  (query.matching_eq (.ofList rules) bank).trans (RuleSet.mostSpecific_filter_ofList ..)

/-- A query that nothing matches is answered with nothing, and nothing is drawn. -/
theorem run_of_matching_nil {query : Query} {rules : RuleSet} {bank : Bank}
    (h : query.matching rules bank = []) (dice : Dice) :
    (query.run rules bank dice).response = none ∧ (query.run rules bank dice).asked = [] ∧
      (query.run rules bank dice).dice = dice := by
  unfold run
  rw [h]
  exact ⟨rfl, rfl, rfl⟩

/-- A query that something matches is answered by one draw among what matches. -/
theorem run_of_matching {query : Query} {rules : RuleSet} {bank : Bank} {tier : List Rule}
    (h : query.matching rules bank = tier) (dice : Dice) (hpos : 0 < tier.length) :
    (query.run rules bank dice).response =
        some (tier[(dice.roll tier.length hpos).1]).response ∧
      (query.run rules bank dice).asked = [tier.length] ∧
      (query.run rules bank dice).dice = (dice.roll tier.length hpos).2 := by
  cases tier with
  | nil => simp at hpos
  | cons first others =>
    unfold run
    rw [h]
    exact ⟨rfl, rfl, rfl⟩

/-- What matches a query over a list of rules is the tier of the rules that answer it, in the order
of the list. The query is answered with nothing exactly if no rule answers it; otherwise one number
below the size of the tier is drawn, and the response is that of the drawn rule. -/
theorem answers_by_mostSpecific (query : Query) (rules : List Rule) (bank : Bank) (dice : Dice) :
    let answering := query.answering bank rules
    let tier := mostSpecific answering
    let answer := query.run (.ofList rules) bank dice
    query.matching (.ofList rules) bank = tier ∧
      (answer.response = none ↔ answering = []) ∧
      (answering = [] → tier = [] ∧ answer.asked = [] ∧ answer.dice = dice) ∧
      (∀ hpos : 0 < tier.length,
        answer.response = some (tier[(dice.roll tier.length hpos).1]).response ∧
          answer.asked = [tier.length] ∧ answer.dice = (dice.roll tier.length hpos).2) ∧
      ∀ rule ∈ query.matching (.ofList rules) bank,
        rule.concept = query.concept ∧
          ∀ other ∈ answering, other.specificity ≤ rule.specificity := by
  intro answering tier answer
  have hmatching : query.matching (.ofList rules) bank = tier := query.matching_ofList rules bank
  have hnil (h : answering = []) : tier = [] := mostSpecific_eq_nil_iff.2 h
  refine ⟨hmatching, ⟨fun hnone => ?_, fun h => ?_⟩, fun h => ⟨hnil h, ?_⟩,
    fun hpos => run_of_matching hmatching dice hpos, fun rule hrule => ?_⟩
  · refine Decidable.byContradiction fun hne => ?_
    have hpos : 0 < tier.length :=
      List.length_pos_iff.2 fun h => hne (mostSpecific_eq_nil_iff.1 h)
    have := (run_of_matching hmatching dice hpos).1
    exact absurd (hnone.symm.trans this) (by simp)
  · exact (run_of_matching_nil (hmatching.trans (hnil h)) dice).1
  · exact (run_of_matching_nil (hmatching.trans (hnil h)) dice).2
  · rw [hmatching] at hrule
    obtain ⟨hmem, hmost⟩ := mem_mostSpecific.1 hrule
    have hanswers := (List.mem_filter.1 hmem).2
    simp only [Rule.answers, Bool.and_eq_true, decide_eq_true_eq] at hanswers
    exact ⟨hanswers.1, hmost⟩

end Query

end FactRules
