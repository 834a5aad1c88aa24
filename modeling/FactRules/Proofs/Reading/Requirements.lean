import FactRules.Proofs.Query.Fallback
import FactRules.Proofs.Reading.Forms

/-!
# Requirements

Criteria can be read without a rule, and a query then says whether they hold: this is how content
that is no rule states what it requires. A requirement and a rule with the same facts come to the
same. They are read alike, fault by fault (`Document.ofValue_of_oneRule`), if no fact is a group, as
groups are for rules only. And they are answered alike: a requirement does not look at the facts of
the query itself, which a rule falls back to, so these facts must be none or must not matter. That
is `Query.holds_iff_matching`.
-/

namespace FactRules

/-! ## Documents with one rule -/

/-- A rule for a concept that has the given facts. It has an id, names a response, and may have
facts to apply. -/
structure IsRuleWith (responses : List String) (concept : Concept) (facts : List String)
    (entries : List (String × Value)) : Prop where
  id : ∃ id, Entries.get? "id" entries = some (.str id)
  criteria : ∃ criteria name, Entries.get? "criteria" entries = some (.table criteria) ∧
    Entries.get? "concept" criteria = some name ∧ Concept.ofValue name = .ok concept ∧
    HoldsList "facts" (facts.map .str) criteria
  response : ∃ id ∈ responses, Entries.get? "response" entries = some (.str id)
  applyFacts : MayList "apply_facts" entries

/-- A document has one rule, for a concept and with the given facts. The facts are any texts; all
else is as it has to be. -/
structure HasOneRule (concept : Concept) (facts : List String) (document : Value) : Prop where
  lists : document.IsTable fun entries =>
    MayList "response" entries ∧ MayList "rule" entries ∧ MayList "entries" entries ∧
      ∀ entry ∈ itemsUnder "entries" entries, IsTagged entry
  responses : ∀ record ∈ recordsOf .response document, record.IsTable IsResponse
  distinct : (responseIds document).Nodup
  rule : ∃ record, recordsOf .rule document = [record] ∧
    record.IsTable (IsRuleWith (responseIds document) concept facts)

/-! ## Reading -/

variable {concept : Concept} {facts : List String}

/-- Facts that are no groups are read in a rule as they are on their own. -/
theorem Criteria.expand_eq_ofValue (concept : Concept)
    (hbars : ∀ text ∈ facts, ¬ Text.HasBars text.toList) :
    expand concept (facts.map .str) =
      (ofValue concept (.list (facts.map .str))).map ([·]) := by
  have hplain : ∀ fact ∈ facts.map Value.str, isGroup fact = false := by
    intro fact hfact
    obtain ⟨text, htext, rfl⟩ := List.mem_map.1 hfact
    rw [isGroup_str]
    exact decide_eq_false (hbars text htext)
  have heach : ∀ fact ∈ facts.map Value.str, (alternativesOf fact).map (isGroup fact, ·) =
      (Criterion.ofValue fact).map fun criterion => (false, [criterion]) := by
    intro fact hfact
    rw [hplain fact hfact]
    obtain ⟨text, htext, rfl⟩ := List.mem_map.1 hfact
    rw [alternativesOf, Text.alternatives_of_not_hasBars (hbars text htext), Criterion.ofValue]
    simp only [List.mapM_cons, List.mapM_nil]
    cases Criterion.ofText text.toList with
    | error error => rfl
    | ok criterion => rfl
  have hnone : (facts.map Value.str).find? isGroup = none := by
    rw [List.find?_eq_none]
    intro fact hfact
    rw [hplain fact hfact]
    exact Bool.false_ne_true
  rw [expand, mapM_eq_map heach, ofValue, hnone]
  cases (facts.map Value.str).mapM Criterion.ofValue with
  | error error => rfl
  | ok predicates =>
    simp [bind, Except.bind, Except.map, pure, Except.pure, choices, List.filter_map,
      Function.comp_def, List.flatMap_map]

/-- A rule about which nothing but its facts can be wrong is read as its facts are. -/
theorem readRule_of_isRuleWith {responses : Responses} {entries : List (String × Value)}
    (h : IsRuleWith responses.keys concept facts entries) :
    ∃ id response, readRule responses (.table entries) =
      ((Criteria.expand concept (facts.map .str)).mapError DocumentError.criterion).map
        (·.map fun criteria => ⟨id, criteria, response⟩) := by
  obtain ⟨⟨id, hid⟩, ⟨criteria, name, hcriteria, hname, hconcept, hfacts⟩,
    ⟨responseId, hmem, hresponse⟩, happly⟩ := h
  obtain ⟨response, hfound⟩ := Option.isSome_iff_exists.1 (OrderedMap.mem_keys_iff.1 hmem)
  obtain ⟨_, happly⟩ := (succeeds_checkApplyFacts id).2 happly
  have hitems : textsUnder "facts" id (.ok []) criteria = .ok (facts.map .str) := by
    rcases hfacts with hget | ⟨hget, hnil⟩
    · exact textsUnder_eq_ok_iff.2 (.inr ⟨facts, rfl, hget⟩)
    · rw [hnil]
      exact textsUnder_eq_ok_iff.2 (.inl ⟨hget, rfl⟩)
  refine ⟨id, response, ?_⟩
  rw [readRule, recordId_eq_ok_iff.2 ⟨rfl, hid⟩]
  simp only [bind, Except.bind, hcriteria, hname, hconcept, hitems, hresponse, hfound, happly,
    pure, Except.pure, Except.mapError]
  cases Criteria.expand concept (facts.map .str) with
  | error error => rfl
  | ok variants => rfl

/-- A document with one rule is read as the facts of the rule are on their own, if no fact is a
group: to the rule with these criteria, or to the same error. -/
theorem Document.ofValue_of_oneRule {value : Value} (h : HasOneRule concept facts value)
    (hbars : ∀ text ∈ facts, ¬ Text.HasBars text.toList) :
    ∃ id response count, ofValue value =
      ((Criteria.ofValue concept (.list (facts.map .str))).mapError DocumentError.criterion).map
        fun criteria => ⟨.ofList [⟨id, criteria, response⟩], 1, count⟩ := by
  obtain ⟨records, hrecords⟩ := Records.succeeds_ofValue.2 h.lists
  obtain rfl := Records.ofValue_ok hrecords
  have hdistinct : ((∅ : Responses).keys ++
      (recordsOf .response value).filterMap idOf?).Nodup := h.distinct
  obtain ⟨responses, hresponses⟩ := Responses.succeeds_addAll.2 ⟨h.responses, hdistinct⟩
  obtain ⟨record, hrule, entries, rfl, hentries⟩ := h.rule
  rw [← keys_responses hresponses] at hentries
  obtain ⟨id, response, hread⟩ := readRule_of_isRuleWith hentries
  refine ⟨id, response, responses.size, ?_⟩
  rw [ofValue, hrecords, hrule]
  simp only [bind, Except.bind, Records.read, hresponses, List.mapM_cons, List.mapM_nil, hread,
    Criteria.expand_eq_ofValue concept hbars]
  cases Criteria.ofValue concept (.list (facts.map .str)) with
  | error error => rfl
  | ok criteria => rfl

/-! ## Answering -/

namespace Query

/-- The rule of a set with one rule matches exactly if it answers the query. -/
theorem matching_singleton_ne_nil_iff (query : Query) (rule : Rule) (bank : Bank) :
    query.matching (.ofList [rule]) bank ≠ [] ↔
      rule.answers query.concept (query.found bank) = true := by
  rw [matching_ofList, Ne, mostSpecific_eq_nil_iff, answering, List.filter_singleton]
  cases rule.answers query.concept (query.found bank) with
  | true => simp
  | false => simp

/-- Criteria hold exactly if a rule with them answers a query with the same stores that finds
nothing else under the keys of the criteria. -/
theorem holds_eq_answers {query : Query} {criteria : Criteria} {bank : Bank}
    {found : String → Single} (h : ∀ criterion ∈ criteria.predicates,
      found criterion.key = (bank.chain query.stores).get criterion.key)
    (id : String) (response : Response) :
    query.holds criteria bank = Rule.answers query.concept found ⟨id, criteria, response⟩ := by
  rw [holds, Rule.answers, Criteria.holds]
  congr 1
  rw [Bool.eq_iff_iff, List.all_eq_true, List.all_eq_true]
  refine forall₂_congr fun criterion hmem => ?_
  rw [h criterion hmem, Criterion.holds]

/-- Without facts of its own a query finds what its stores have. -/
theorem found_without_extra (query : Query) (bank : Bank) (key : String) :
    { query with extra := ∅ }.found bank key = (bank.chain query.stores).get key := by
  have hempty : Chain.lookup? [∅] key = none := rfl
  rw [found, ← Chain.get_append_own, Chain.get, Chain.lookup?_append, hempty, Option.or_none]
  rfl

/-- A fact of the query itself is not found under a key that the query has no fact for, or that one
of its stores has. -/
theorem found_of_settled {query : Query} {bank : Bank} {key : String}
    (h : query.extra.contains key = true →
      ∃ store ∈ query.stores, (bank.get store).contains key = true) :
    query.found bank key = (bank.chain query.stores).get key := by
  rw [← found_without_extra]
  refine valueFor_congr fun habsent => ?_
  have hnew : query.extra.contains key = false := by
    rw [Bool.eq_false_iff]
    intro hown
    obtain ⟨store, hmem, hcontains⟩ := h hown
    rw [habsent _ (List.mem_map_of_mem hmem)] at hcontains
    cases hcontains
  exact Option.not_isSome_iff_eq_none.1 (Bool.eq_false_iff.1 hnew)

/-- A requirement and a rule with the same facts come to the same, if no fact is a group. Reading
the facts on their own fails exactly if reading a document with this one rule fails for them, with
the same error. Otherwise the criteria hold for a query exactly if the rule matches the query
without its own facts, and exactly if it matches the query with them, as long as each of these is
for a key that the criteria do not mention or that a store of the query has. -/
theorem holds_iff_matching {concept : Concept} {facts : List String} {value : Value}
    (hbars : ∀ text ∈ facts, ¬ Text.HasBars text.toList) (hone : HasOneRule concept facts value) :
    let read := Criteria.ofValue concept (.list (facts.map .str))
    (∀ error, read = .error error ↔ Document.ofValue value = .error (.criterion error) ∧
        (DocumentError.criterion error).message = error.message) ∧
      ∀ criteria, read = .ok criteria →
        ∃ document, Document.ofValue value = .ok document ∧
          ∀ (query : Query) (bank : Bank),
            (query.holds criteria bank = true ↔
              { query with extra := ∅ }.matching document.rules bank ≠ []) ∧
            ((∀ key, query.extra.contains key = true →
                (∀ criterion ∈ criteria.predicates, criterion.key ≠ key) ∨
                  ∃ store ∈ query.stores, (bank.get store).contains key = true) →
              (query.holds criteria bank = true ↔ query.matching document.rules bank ≠ [])) := by
  obtain ⟨id, response, count, hdocument⟩ := Document.ofValue_of_oneRule hone hbars
  rw [hdocument]
  generalize Criteria.ofValue concept (.list (facts.map .str)) = result
  intro read
  constructor
  · intro error
    have hmessage : (DocumentError.criterion error).message = error.message := rfl
    cases result with
    | error other =>
      simp only [read, Except.mapError, Except.map, Except.error.injEq,
        DocumentError.criterion.injEq, hmessage, and_true]
    | ok criteria => simp only [read, Except.mapError, Except.map, reduceCtorEq, false_and]
  · intro criteria hread
    obtain rfl : result = .ok criteria := hread
    refine ⟨_, rfl, fun query bank => ⟨?_, fun hsettled => ?_⟩⟩
    · have hfound : ∀ criterion ∈ criteria.predicates, { query with extra := ∅ }.found bank
          criterion.key = (bank.chain query.stores).get criterion.key :=
        fun criterion _ => query.found_without_extra bank criterion.key
      rw [matching_singleton_ne_nil_iff, holds_eq_answers hfound id response]
    · have hfound : ∀ criterion ∈ criteria.predicates,
          query.found bank criterion.key = (bank.chain query.stores).get criterion.key := by
        intro criterion hmem
        refine found_of_settled fun hown => ?_
        rcases hsettled criterion.key hown with hmentioned | hstore
        · exact absurd rfl (hmentioned criterion hmem)
        · exact hstore
      rw [matching_singleton_ne_nil_iff, holds_eq_answers hfound id response]

/-- What has to hold for a meal. -/
def mealFacts : List String := ["hunger > 0", "asleep !"]

/-- A document with one rule, with the same facts. -/
def mealDocument : Value :=
  .table [("response", .list [.table [("id", .str "meal"), ("now", .list [])]]),
    ("rule", .list [.table [("id", .str "eat"),
      ("criteria", .table [("concept", .str "think_idle"), ("facts", .list (mealFacts.map .str))]),
      ("response", .str "meal")]])]

/-- A store that knows of hunger. -/
def hungryBank : Bank := ⟨[.ofList [("hunger", .ofInt 1)]]⟩

/-- A query with a fact that the store has too, and one that a meal does not depend on. -/
def mealQuery : Query := ⟨.thinkIdle, [⟨0⟩], .ofList [("hunger", .zero), ("rain", .zero)]⟩

/-- Whoever is hungry and awake may eat, by the requirement and by the rule. -/
theorem meal_allowed :
    ((∀ text ∈ mealFacts, ¬ Text.HasBars text.toList) ∧
        HasOneRule .thinkIdle mealFacts mealDocument) ∧
      ∃ criteria document,
        Criteria.ofValue .thinkIdle (.list (mealFacts.map .str)) = .ok criteria ∧
          Document.ofValue mealDocument = .ok document ∧
          mealQuery.holds criteria hungryBank = true ∧
          mealQuery.matching document.rules hungryBank ≠ [] := by
  have hbars : ∀ text ∈ mealFacts, ¬ Text.HasBars text.toList := by decide +kernel
  obtain ⟨hlists, hresponses, hdistinct, -⟩ :=
    Document.succeeds_ofValue.1 (show Succeeds (Document.ofValue mealDocument) by decide +kernel)
  have hone : HasOneRule .thinkIdle mealFacts mealDocument :=
    { lists := hlists
      responses := hresponses
      distinct := hdistinct
      rule := ⟨_, rfl, _, rfl,
        { id := ⟨_, rfl⟩
          criteria := ⟨_, _, rfl, rfl, rfl, .inl rfl⟩
          response := ⟨_, .head _, rfl⟩
          applyFacts := nofun }⟩ }
  obtain ⟨-, hread⟩ := holds_iff_matching hbars hone
  have hcriteria : Criteria.ofValue .thinkIdle (.list (mealFacts.map .str)) = .ok
      ⟨.thinkIdle, [⟨"hunger", .zero, .infinity false⟩, ⟨"asleep", .zero, .zero⟩]⟩ :=
    toOption_eq_some_iff.1 (by decide +kernel)
  obtain ⟨document, hdocument, hagree⟩ := hread _ hcriteria
  have hholds : mealQuery.holds
      ⟨.thinkIdle, [⟨"hunger", .zero, .infinity false⟩, ⟨"asleep", .zero, .zero⟩]⟩
        hungryBank = true := by decide +kernel
  refine ⟨⟨hbars, hone⟩, _, document, hcriteria, hdocument, hholds, ?_⟩
  refine ((hagree mealQuery hungryBank).2 fun key hown => ?_).1 hholds
  have hkeys : mealQuery.extra.facts.keys = ["hunger", "rain"] := by decide +kernel
  have hmem : key ∈ mealQuery.extra.facts.keys := OrderedMap.mem_keys_iff.2 hown
  rw [hkeys, List.mem_pair] at hmem
  rcases hmem with rfl | rfl
  · exact .inr ⟨⟨0⟩, .head _, by decide +kernel⟩
  · exact .inl (by decide)

end Query

end FactRules
