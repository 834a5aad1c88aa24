import FactRules.Proofs.Query.MostSpecific
import FactRules.Proofs.Reading.Authored

/-!
# Documents mean what they say

An authored rule is satisfied if it is for the concept of a query and each of its texts has an
alternative that accepts what the query finds (`AuthoredRule.isSatisfied`).
`Document.matching_rulesOf` says what matches a query over a document that is accepted: of the
satisfied rules those with the most texts, each in as many variants as there are ways to satisfy its
groups (`AuthoredRule.ways`), in the order of the document.

All variants of a rule have one criterion for each text (`IsVariant.specificity_eq`), so the tier of
the search is made of whole blocks of variants (`mostSpecific_flatMap`).
-/

namespace FactRules

/-- Whether a criterion accepts what is found under its key. -/
def Criterion.acceptsFound (found : String → Single) (criterion : Criterion) : Bool :=
  criterion.accepts (found criterion.key).toDouble

namespace AuthoredRule

/-- Whether a rule is for a concept, and each of its texts has an alternative that accepts what is
found. -/
def isSatisfied (concept : Concept) (found : String → Single) (rule : AuthoredRule) : Bool :=
  decide (rule.concept = concept) &&
    rule.facts.all fun text => (Criterion.alternatives text).any (·.acceptsFound found)

/-- In how many ways the groups of a rule accept what is found: the product of the numbers of their
alternatives that do. -/
def ways (found : String → Single) (rule : AuthoredRule) : Nat :=
  ((rule.facts.filter (Text.HasBars ·.toList)).map fun text =>
    (Criterion.alternatives text).countP (·.acceptsFound found)).prod

/-- The rules with the greatest number of texts, in their order. -/
def foremost (rules : List AuthoredRule) : List AuthoredRule :=
  rules.filter fun rule => (rules.map (·.facts.length)).max? = some rule.facts.length

/-- A rule is a variant of an authored one: it has the id, the concept and the response, and for
each text, the groups in front, one of the alternatives. -/
structure IsVariant (authored : AuthoredRule) (rule : Rule) : Prop where
  id : rule.id = authored.id
  concept : rule.concept = authored.concept
  response : rule.response = authored.response
  predicates : List.Forall₂ (fun criterion text => criterion ∈ Criterion.alternatives text)
    rule.criteria.predicates (Criteria.groupsFirst authored.facts)

/-- A variant has one criterion for each text. -/
theorem IsVariant.specificity_eq {authored : AuthoredRule} {rule : Rule}
    (h : authored.IsVariant rule) : rule.specificity = authored.facts.length :=
  h.predicates.length_eq.trans (Criteria.groupsFirst_perm authored.facts).length_eq

variable {authored : AuthoredRule} {found : String → Single} {concept : Concept}

/-- What a rule is expanded to are variants of it: each takes one alternative of every fact. -/
theorem isVariant_of_mem_variants {p : Criterion → Bool} {rule : Rule}
    (h : rule ∈ authored.variants p) : authored.IsVariant rule := by
  obtain ⟨chosen, hchosen, rfl⟩ := List.mem_map.1 h
  refine ⟨rfl, rfl, rfl, ?_⟩
  have hmembers := Criteria.forall₂_of_mem_choices hchosen
  rw [List.forall₂_map_right_iff] at hmembers
  exact hmembers.imp fun criterion text hmem => (List.mem_filter.1 hmem).1

/-- The variants that answer a query are those whose criterions all accept what is found, if the
rule is for the concept. -/
theorem variants_filter_answers (authored : AuthoredRule) (concept : Concept)
    (found : String → Single) :
    (authored.variants fun _ => true).filter (Rule.answers concept found) =
      if authored.concept = concept then authored.variants (·.acceptsFound found) else [] := by
  split
  · next hconcept =>
    have hanswers : (Rule.answers concept found) ∘
        (fun chosen => (⟨authored.id, ⟨authored.concept, chosen⟩, authored.response⟩ : Rule)) =
          fun chosen => chosen.all (·.acceptsFound found) := by
      funext chosen
      simp only [Function.comp_apply, Rule.answers, Rule.concept, hconcept, decide_true,
        Bool.true_and]
      rfl
    rw [variants, List.filter_map, hanswers, Criteria.choices_filter, List.map_map, variants]
    simp [Function.comp_def]
  · next hconcept =>
    refine List.filter_eq_nil_iff.2 fun rule hrule => ?_
    rw [Rule.answers, (isVariant_of_mem_variants hrule).concept, decide_eq_false hconcept]
    exact Bool.false_ne_true

/-- A rule for the concept is satisfied exactly if it has a variant that accepts what is found. -/
theorem isSatisfied_iff :
    authored.isSatisfied concept found = true ↔
      authored.concept = concept ∧ authored.variants (·.acceptsFound found) ≠ [] := by
  rw [isSatisfied, Bool.and_eq_true, decide_eq_true_eq, variants, Ne, List.map_eq_nil_iff,
    Criteria.choices_eq_nil_iff, List.all_eq_true]
  refine and_congr_right fun _ => ?_
  have hperm := Criteria.groupsFirst_perm authored.facts
  constructor
  · intro hall hmem
    obtain ⟨text, htext, hnone⟩ := List.mem_map.1 hmem
    obtain ⟨criterion, hcriterion, haccepts⟩ :=
      List.any_eq_true.1 (hall text (hperm.mem_iff.1 htext))
    exact List.filter_eq_nil_iff.1 hnone criterion hcriterion haccepts
  · intro hsome text htext
    obtain ⟨criterion, hcriterion⟩ := List.exists_mem_of_ne_nil _ fun hnone =>
      hsome (List.mem_map.2 ⟨text, hperm.mem_iff.2 htext, hnone⟩)
    obtain ⟨hmem, haccepts⟩ := List.mem_filter.1 hcriterion
    exact List.any_eq_true.2 ⟨criterion, hmem, haccepts⟩

/-- A satisfied rule has as many variants that accept what is found as there are ways. -/
theorem length_variants (hsatisfied : authored.isSatisfied concept found = true)
    (hpieces : ∀ text ∈ authored.facts,
      (Criterion.alternatives text).length = (Text.alternatives text.toList).length) :
    (authored.variants (·.acceptsFound found)).length = authored.ways found := by
  rw [isSatisfied, Bool.and_eq_true, List.all_eq_true] at hsatisfied
  -- a satisfied text that is no group has one alternative, which is satisfied
  have hplain : ((authored.facts.filter (¬ Text.HasBars ·.toList)).map fun text =>
      (Criterion.alternatives text).countP (·.acceptsFound found)).prod = 1 := by
    refine List.prod_eq_one fun n hn => ?_
    obtain ⟨text, htext, rfl⟩ := List.mem_map.1 hn
    obtain ⟨hmem, hbars⟩ := List.mem_filter.1 htext
    have hone := Criteria.length_alternatives_eq_one (of_decide_eq_true hbars) (hpieces text hmem)
    obtain ⟨criterion, hcriterion⟩ := List.length_eq_one_iff.1 hone
    have haccepts := hsatisfied.2 text hmem
    rw [hcriterion] at haccepts ⊢
    simpa using haccepts
  have hlengths : (fun text : String =>
      ((Criterion.alternatives text).filter (·.acceptsFound found)).length) =
        fun text => (Criterion.alternatives text).countP (·.acceptsFound found) :=
    funext fun text => List.countP_eq_length_filter.symm
  rw [variants, List.length_map, Criteria.length_choices, List.map_map]
  rw [Function.comp_def, hlengths, Criteria.groupsFirst, List.map_append, List.prod_append, hplain,
    Nat.mul_one, ways]

/-- The variants that answer a query: those that accept what is found if the rule is satisfied, and
none otherwise. -/
theorem variants_answering (authored : AuthoredRule) (concept : Concept)
    (found : String → Single) :
    (authored.variants fun _ => true).filter (Rule.answers concept found) =
      if authored.isSatisfied concept found then authored.variants (·.acceptsFound found)
      else [] := by
  rw [variants_filter_answers]
  split
  · next hconcept =>
    split
    · rfl
    · next hsatisfied =>
      rw [isSatisfied_iff, not_and] at hsatisfied
      exact Decidable.of_not_not (hsatisfied hconcept)
  · next hconcept =>
    rw [if_neg]
    exact fun hsatisfied => hconcept (isSatisfied_iff.1 hsatisfied).1

end AuthoredRule

/-- What matches a query over a document that is accepted. Every rule record of the document defines
a rule. Nothing matches exactly if no rule is satisfied; otherwise the variants of the satisfied
rules with the most texts match, in the order of the document, each of these rules with as many
variants as there are ways to satisfy its groups. -/
theorem Document.matching_rulesOf {value : Value} {document : Document}
    (h : Document.ofValue value = .ok document) (query : Query) (bank : Bank) :
    let found := query.found bank
    let foremost := AuthoredRule.foremost
      ((rulesOf value).filter (AuthoredRule.isSatisfied query.concept found))
    (recordsOf .rule value).map (authoredRule? (responsesOf value)) = (rulesOf value).map some ∧
      (query.matching document.rules bank = [] ↔
        ∀ rule ∈ rulesOf value, rule.isSatisfied query.concept found = false) ∧
      query.matching document.rules bank =
        foremost.flatMap (fun rule => rule.variants (·.acceptsFound found)) ∧
      ∀ rule ∈ foremost, (rule.variants (·.acceptsFound found)).length = rule.ways found ∧
        ∀ variant ∈ rule.variants (·.acceptsFound found), rule.IsVariant variant := by
  intro found foremost
  obtain ⟨_, _, hauthored, hpieces, hrules⟩ := Document.ofValue_ok h
  have hanswering : query.answering bank
      ((rulesOf value).flatMap fun rule => rule.variants fun _ => true) =
        ((rulesOf value).filter (AuthoredRule.isSatisfied query.concept found)).flatMap
          fun rule => rule.variants (·.acceptsFound found) := by
    rw [Query.answering, List.filter_flatMap]
    exact flatMap_eq_flatMap_filter fun rule _ => rule.variants_answering query.concept found
  have hmatching : query.matching document.rules bank =
      foremost.flatMap fun rule => rule.variants (·.acceptsFound found) := by
    rw [hrules, Query.matching_ofList, hanswering]
    refine mostSpecific_flatMap (fun rule hrule => ?_) fun rule _ variant hvariant => ?_
    · exact (AuthoredRule.isSatisfied_iff.1 (List.mem_filter.1 hrule).2).2
    · exact (AuthoredRule.isVariant_of_mem_variants hvariant).specificity_eq
  refine ⟨hauthored, ?_, hmatching, fun rule hrule => ?_⟩
  · rw [hrules, Query.matching_ofList, mostSpecific_eq_nil_iff, hanswering,
      List.flatMap_eq_nil_iff]
    constructor
    · intro hnil rule hrule
      refine Bool.eq_false_iff.2 fun hsatisfied => ?_
      exact (AuthoredRule.isSatisfied_iff.1 hsatisfied).2
        (hnil rule (List.mem_filter.2 ⟨hrule, hsatisfied⟩))
    · intro hnone rule hrule
      obtain ⟨hmem, hsatisfied⟩ := List.mem_filter.1 hrule
      rw [hnone rule hmem] at hsatisfied
      cases hsatisfied
  · obtain ⟨hmem, hsatisfied⟩ := List.mem_filter.1 (List.mem_filter.1 hrule).1
    exact ⟨AuthoredRule.length_variants hsatisfied (hpieces rule hmem),
      fun variant => AuthoredRule.isVariant_of_mem_variants⟩

/-- A rule for all who idle, and a tagged one for those who have nothing to do and no company. -/
def idleDocument : Value :=
  .table
    [("response",
        .list [.table [("id", .str "yawn"), ("now", .list [.str "RandomText aah, hmm"])]]),
      ("rule", .list [.table [("id", .str "idle"), ("response", .str "yawn"),
        ("criteria", .table [("concept", .str "ThinkIdle")])]]),
      ("entries", .list [.table [("Rule", .table [("id", .str "bored"), ("response", .str "yawn"),
        ("criteria", .table [("concept", .str "think_idle"),
          ("facts", .list [.str "busy !", .str "book ! || game ! || friend > 0.5"])])])]])]

/-- Where no fact is known, two of three alternatives hold, so the rule with the most texts matches
in two variants. -/
theorem idleDocument_matching :
    ∃ document, Document.ofValue idleDocument = .ok document ∧
      ((Query.ofConcept .thinkIdle).matching document.rules ∅).map (·.id) = ["bored", "bored"] := by
  obtain ⟨document, hdocument⟩ : ∃ document, Document.ofValue idleDocument = .ok document :=
    ⟨_, by rfl⟩
  refine ⟨document, hdocument, ?_⟩
  obtain ⟨_, _, hmatching, _⟩ := Document.matching_rulesOf hdocument (.ofConcept .thinkIdle) ∅
  rw [hmatching]
  decide +kernel

end FactRules
