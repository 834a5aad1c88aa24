import FactRules.Proofs.Reading.Authored

/-!
# The grammar of rule documents

`IsRuleDocument` says what a rule document is made of, without a reader: which keys its tables have,
what stands under them, and that rules name responses of the document. Only single texts are left to
their own readers. `Document.accepts_exactly` says that exactly the documents of the grammar are
read, and as what.

For each function of the reader there is a lemma that says when it succeeds, in its order.
-/

namespace FactRules

/-! ## The grammar -/

/-- A key has a list, if it is present. -/
def MayList (key : String) (entries : List (String × Value)) : Prop :=
  ∀ value ∈ Entries.get? key entries, ∃ items, value = .list items

/-- A value is a list of texts that pass a test. -/
def Value.IsTexts (p : String → Prop) (value : Value) : Prop :=
  ∃ texts : List String, value = .list (texts.map .str) ∧ ∀ text ∈ texts, p text

/-- A text is read as an action. -/
def IsAction (text : String) : Prop := Succeeds (Action.ofText text.toList)

/-- All alternatives of a text are read as criterions. -/
def IsCriterionGroup (text : String) : Prop :=
  ∀ piece ∈ Text.alternatives text.toList, Succeeds (Criterion.ofText piece)

instance : DecidablePred IsCriterionGroup := fun text =>
  inferInstanceAs (Decidable (∀ piece ∈ Text.alternatives text.toList, _))

/-- A response has an id, actions for now, and may have actions for afterwards. -/
structure IsResponse (entries : List (String × Value)) : Prop where
  id : ∃ id, Entries.get? "id" entries = some (.str id)
  now : ∃ now, Entries.get? "now" entries = some now ∧ now.IsTexts IsAction
  after : ∀ after ∈ Entries.get? "after" entries, after.IsTexts IsAction

/-- Criteria name a concept and may have facts. -/
structure IsCriteria (entries : List (String × Value)) : Prop where
  concept : ∃ name, Entries.get? "concept" entries = some name ∧ Succeeds (Concept.ofValue name)
  facts : ∀ facts ∈ Entries.get? "facts" entries, facts.IsTexts IsCriterionGroup

/-- A rule has an id and criteria, names a response, and may have facts to apply. -/
structure IsRule (responses : List String) (entries : List (String × Value)) : Prop where
  id : ∃ id, Entries.get? "id" entries = some (.str id)
  criteria : ∃ criteria, Entries.get? "criteria" entries = some (.table criteria) ∧
    IsCriteria criteria
  response : ∃ id ∈ responses, Entries.get? "response" entries = some (.str id)
  applyFacts : MayList "apply_facts" entries

/-- A value is a table of which something holds. -/
def Value.IsTable (p : List (String × Value) → Prop) (value : Value) : Prop :=
  ∃ entries, value = .table entries ∧ p entries

/-- An entry has one key, the tag of its record. -/
def IsTagged (entry : Value) : Prop := ∃ kind record, entry = .table [(RecordKind.tag kind, record)]

/-- The id of a record. -/
def idOf? : Value → Option String
  | .table entries => textUnder? "id" entries
  | _ => none

/-- The ids of the responses that a document defines. -/
def responseIds (document : Value) : List String :=
  (recordsOf .response document).filterMap idOf?

/-- A document is a table with responses of distinct ids and rules, in lists of their own or among
tagged entries. -/
structure IsRuleDocument (document : Value) : Prop where
  lists : document.IsTable fun entries =>
    MayList "response" entries ∧ MayList "rule" entries ∧ MayList "entries" entries ∧
      ∀ entry ∈ itemsUnder "entries" entries, IsTagged entry
  responses : ∀ record ∈ recordsOf .response document, record.IsTable IsResponse
  distinct : (responseIds document).Nodup
  rules : ∀ record ∈ recordsOf .rule document, record.IsTable (IsRule (responseIds document))

/-! ## Collecting the records -/

namespace Records

/-- Only what is no list under a key is refused; the key may be missing. -/
theorem succeeds_listUnder {key : String} {document : List (String × Value)} :
    Succeeds (listUnder key document) ↔ MayList key document := by
  unfold listUnder MayList
  cases Entries.get? key document with
  | none => simp
  | some value => cases value <;> simp

/-- An entry is filed if it is a table with one key, which is a tag. -/
theorem succeeds_addEntry {records : Records} {entry : Value} :
    Succeeds (records.addEntry entry) ↔ IsTagged entry := by
  constructor
  · rintro ⟨next, h⟩
    unfold addEntry at h
    split at h
    · next tag record =>
      split at h
      · next htag => exact ⟨.response, record, by rw [htag]⟩
      · split at h
        · next htag => exact ⟨.rule, record, by rw [htag]⟩
        · cases h
    · cases h
  · rintro ⟨kind, record, rfl⟩
    cases kind with
    | response => exact ⟨_, rfl⟩
    | rule => exact ⟨_, rfl⟩

/-- So entries are filed if all of them are so. -/
theorem succeeds_addEntries {records : Records} {entries : List Value} :
    Succeeds (entries.foldlM addEntry records) ↔ ∀ entry ∈ entries, IsTagged entry := by
  induction entries generalizing records with
  | nil => exact ⟨fun _ => nofun, fun _ => ⟨records, rfl⟩⟩
  | cons entry rest ih =>
    rw [List.foldlM_cons, succeeds_bind, List.forall_mem_cons]
    constructor
    · rintro ⟨next, hentry, hrest⟩
      exact ⟨succeeds_addEntry.1 ⟨next, hentry⟩, ih.1 hrest⟩
    · rintro ⟨hentry, hrest⟩
      obtain ⟨next, hnext⟩ := succeeds_addEntry.2 hentry
      exact ⟨next, hnext, ih.2 hrest⟩

/-- The records of a document can be collected if its lists are lists and its entries tagged. -/
theorem succeeds_ofValue {document : Value} :
    Succeeds (ofValue document) ↔ document.IsTable fun entries =>
      MayList "response" entries ∧ MayList "rule" entries ∧ MayList "entries" entries ∧
        ∀ entry ∈ itemsUnder "entries" entries, IsTagged entry := by
  constructor
  · rintro ⟨records, h⟩
    unfold ofValue at h
    split at h
    · next entries =>
      obtain ⟨responses, hresponses, h⟩ := bind_eq_ok.1 h
      obtain ⟨rules, hrules, h⟩ := bind_eq_ok.1 h
      obtain ⟨tagged, htagged, h⟩ := bind_eq_ok.1 h
      refine ⟨entries, rfl, succeeds_listUnder.1 ⟨_, hresponses⟩, succeeds_listUnder.1 ⟨_, hrules⟩,
        succeeds_listUnder.1 ⟨_, htagged⟩, ?_⟩
      rw [← listUnder_ok htagged]
      exact succeeds_addEntries.1 ⟨_, h⟩
    · cases h
  · rintro ⟨entries, rfl, hresponses, hrules, hentries, htagged⟩
    obtain ⟨responses, hresponses⟩ := succeeds_listUnder.2 hresponses
    obtain ⟨rules, hrules⟩ := succeeds_listUnder.2 hrules
    obtain ⟨tagged, hentries⟩ := succeeds_listUnder.2 hentries
    rw [← listUnder_ok hentries] at htagged
    obtain ⟨records, hrecords⟩ := succeeds_addEntries.2 htagged
    exact ⟨records, bind_eq_ok.2 ⟨responses, hresponses, bind_eq_ok.2 ⟨rules, hrules,
      bind_eq_ok.2 ⟨tagged, hentries, hrecords⟩⟩⟩⟩

end Records

/-! ## Texts and actions -/

/-- A text under a key is found as one. -/
theorem textUnder?_eq_some_iff {key text : String} {entries : List (String × Value)} :
    textUnder? key entries = some text ↔ Entries.get? key entries = some (.str text) := by
  unfold textUnder?
  cases Entries.get? key entries with
  | none => simp
  | some value => cases value <;> simp [Value.str?]

/-- A table under a key is found as one. -/
theorem tableUnder?_eq_some_iff {key : String} {entries inner : List (String × Value)} :
    tableUnder? key entries = some inner ↔ Entries.get? key entries = some (.table inner) := by
  unfold tableUnder?
  cases Entries.get? key entries with
  | none => simp
  | some value => cases value <;> simp

/-- A record that is read is a table, and what is read of it is the text under its id. -/
theorem recordId_eq_ok_iff {kind : RecordKind} {record : Value} {entries : List (String × Value)}
    {id : String} :
    recordId kind record = .ok (entries, id) ↔
      record = .table entries ∧ Entries.get? "id" entries = some (.str id) := by
  constructor
  · intro h
    unfold recordId at h
    split at h
    · split at h
      · next hget =>
        cases h
        exact ⟨rfl, hget⟩
      · cases h
    · cases h
  · rintro ⟨rfl, hget⟩
    simp only [recordId, hget]

/-- Texts that are read are a list under the key, or stand for an absent key. -/
theorem textsUnder_eq_ok_iff {key id : String} {absent : Except DocumentError (List Value)}
    {entries : List (String × Value)} {items : List Value} :
    textsUnder key id absent entries = .ok items ↔
      (Entries.get? key entries = none ∧ absent = .ok items) ∨
        ∃ texts : List String, items = texts.map .str ∧
          Entries.get? key entries = some (.list items) := by
  constructor
  · intro h
    unfold textsUnder at h
    split at h
    · next hget => exact .inl ⟨hget, h⟩
    · next hget =>
      split at h
      · next htexts =>
        cases h
        obtain ⟨texts, htexts, _⟩ := exists_eq_map_str htexts
        exact .inr ⟨texts, htexts, hget⟩
      · cases h
    · cases h
  · rintro (⟨hget, habsent⟩ | ⟨texts, rfl, hget⟩)
    · simp only [textsUnder, hget, habsent]
    · have htexts : (texts.map Value.str).all Value.isText = true := by simp [Value.isText]
      simp only [textsUnder, hget, htexts, if_true]

section Texts

variable {key id : String} {entries : List (String × Value)} {p : String → Prop}
  {q : List Value → Prop}

/-- Texts that have to be there, of which something holds if each of them passes a test. -/
theorem exists_textsUnder_error_iff {error : DocumentError}
    (hq : ∀ texts : List String, q (texts.map .str) ↔ ∀ text ∈ texts, p text) :
    (∃ items, textsUnder key id (.error error) entries = .ok items ∧ q items) ↔
      ∃ value, Entries.get? key entries = some value ∧ value.IsTexts p := by
  constructor
  · rintro ⟨items, hitems, hread⟩
    obtain ⟨_, herror⟩ | ⟨texts, rfl, hget⟩ := textsUnder_eq_ok_iff.1 hitems
    · cases herror
    · exact ⟨_, hget, texts, rfl, (hq texts).1 hread⟩
  · rintro ⟨_, hget, texts, rfl, hall⟩
    exact ⟨_, textsUnder_eq_ok_iff.2 (.inr ⟨texts, rfl, hget⟩), (hq texts).2 hall⟩

/-- Texts that need not be there. -/
theorem exists_textsUnder_nil_iff
    (hq : ∀ texts : List String, q (texts.map .str) ↔ ∀ text ∈ texts, p text) :
    (∃ items, textsUnder key id (.ok []) entries = .ok items ∧ q items) ↔
      ∀ value ∈ Entries.get? key entries, value.IsTexts p := by
  constructor
  · rintro ⟨items, hitems, hread⟩ value hvalue
    obtain ⟨hnone, _⟩ | ⟨texts, rfl, hget⟩ := textsUnder_eq_ok_iff.1 hitems
    · cases hnone.symm.trans hvalue
    · cases hget.symm.trans hvalue
      exact ⟨texts, rfl, (hq texts).1 hread⟩
  · intro h
    cases hget : Entries.get? key entries with
    | none => exact ⟨[], textsUnder_eq_ok_iff.2 (.inl ⟨hget, rfl⟩), (hq []).2 nofun⟩
    | some value =>
      obtain ⟨texts, rfl, hall⟩ := h value hget
      exact ⟨_, textsUnder_eq_ok_iff.2 (.inr ⟨texts, rfl, hget⟩), (hq texts).2 hall⟩

end Texts

/-- Actions are read if each of them is. -/
theorem succeeds_ofValues {texts : List String} :
    Succeeds ((ActionSet.ofValues (texts.map .str)).mapError DocumentError.action) ↔
      ∀ text ∈ texts, IsAction text := by
  rw [succeeds_mapError, ActionSet.ofValues, succeeds_mapM, List.forall_mem_map]
  rfl

/-- Facts are expanded if all their alternatives are criterions. -/
theorem Criteria.succeeds_expand (concept : Concept) (texts : List String) :
    Succeeds (Criteria.expand concept (texts.map .str)) ↔
      ∀ text ∈ texts, IsCriterionGroup text := by
  have hexpand : Succeeds (Criteria.expand concept (texts.map .str)) ↔
      Succeeds ((texts.map Value.str).mapM fun fact =>
        (Criteria.alternativesOf fact).map (Criteria.isGroup fact, ·)) := by
    rw [Criteria.expand, succeeds_bind]
    constructor
    · rintro ⟨read, hread, _⟩
      exact ⟨read, hread⟩
    · rintro ⟨read, hread⟩
      exact ⟨read, hread, _, rfl⟩
  rw [hexpand, succeeds_mapM, List.forall_mem_map]
  refine forall₂_congr fun text _ => ?_
  rw [succeeds_map, Criteria.alternativesOf, succeeds_mapM]
  rfl

/-- Actions that have to be there. -/
theorem succeeds_actionsUnder_error {key id : String} {error : DocumentError}
    {entries : List (String × Value)} :
    Succeeds (actionsUnder key id (.error error) entries) ↔
      ∃ value, Entries.get? key entries = some value ∧ value.IsTexts IsAction := by
  rw [actionsUnder, succeeds_bind]
  exact exists_textsUnder_error_iff fun _ => succeeds_ofValues

/-- Actions that need not be there. -/
theorem succeeds_actionsUnder_nil {key id : String} {entries : List (String × Value)} :
    Succeeds (actionsUnder key id (.ok []) entries) ↔
      ∀ value ∈ Entries.get? key entries, value.IsTexts IsAction := by
  rw [actionsUnder, succeeds_bind]
  exact exists_textsUnder_nil_iff fun _ => succeeds_ofValues

/-! ## Responses -/

namespace Responses

/-- The steps in which a response record is read. -/
theorem add_eq_ok_iff {responses next : Responses} {record : Value} :
    responses.add record = .ok next ↔
      ∃ entries id now after, record = .table entries ∧
        Entries.get? "id" entries = some (.str id) ∧ id ∉ responses.keys ∧
        actionsUnder "now" id (.error (.missing "now" id)) entries = .ok now ∧
        actionsUnder "after" id (.ok []) entries = .ok after ∧
        next = responses.insert id ⟨now, after⟩ := by
  constructor
  · intro h
    obtain ⟨⟨entries, id⟩, hrecord, hread⟩ := bind_eq_ok.1 h
    obtain ⟨rfl, hid⟩ := recordId_eq_ok_iff.1 hrecord
    dsimp only at hread
    split at hread
    · cases hread
    · next hnew =>
      obtain ⟨now, hnow, hrest⟩ := bind_eq_ok.1 hread
      obtain ⟨after, hafter, hnext⟩ := bind_eq_ok.1 hrest
      exact ⟨entries, id, now, after, rfl, hid, fun hmem => hnew (OrderedMap.mem_keys_iff.1 hmem),
        hnow, hafter, (Except.ok.inj hnext).symm⟩
  · rintro ⟨entries, id, now, after, rfl, hid, hnew, hnow, hafter, rfl⟩
    have hfree : ¬ responses.contains id = true :=
      fun hcontains => hnew (OrderedMap.mem_keys_iff.2 hcontains)
    rw [Responses.add, recordId_eq_ok_iff.2 ⟨rfl, hid⟩]
    simp only [bind, Except.bind, if_neg hfree, hnow, hafter]
    rfl

/-- A response record that is read adds its id at the end. -/
theorem keys_add {responses next : Responses} {record : Value}
    (h : responses.add record = .ok next) :
    ∃ id, idOf? record = some id ∧ next.keys = responses.keys ++ [id] := by
  obtain ⟨entries, id, now, after, rfl, hid, hnew, _, _, rfl⟩ := add_eq_ok_iff.1 h
  refine ⟨id, textUnder?_eq_some_iff.2 hid, ?_⟩
  rw [OrderedMap.keys_insert, if_neg hnew]

/-- A response record is read if it is one and its id is new. -/
theorem succeeds_add {responses : Responses} {record : Value} :
    Succeeds (responses.add record) ↔
      record.IsTable IsResponse ∧ ∀ id ∈ idOf? record, id ∉ responses.keys := by
  constructor
  · rintro ⟨next, h⟩
    obtain ⟨entries, id, now, after, rfl, hid, hnew, hnow, hafter, rfl⟩ := add_eq_ok_iff.1 h
    refine ⟨⟨entries, rfl, ⟨id, hid⟩, succeeds_actionsUnder_error.1 ⟨now, hnow⟩,
      succeeds_actionsUnder_nil.1 ⟨after, hafter⟩⟩, fun other hother => ?_⟩
    cases hid.symm.trans (textUnder?_eq_some_iff.1 hother)
    exact hnew
  · rintro ⟨⟨entries, rfl, ⟨id, hid⟩, hnow, hafter⟩, hnew⟩
    obtain ⟨now, hnow⟩ := succeeds_actionsUnder_error.2 hnow
    obtain ⟨after, hafter⟩ := succeeds_actionsUnder_nil.2 hafter
    have hkey : idOf? (.table entries) = some id := textUnder?_eq_some_iff.2 hid
    exact ⟨_, add_eq_ok_iff.2 ⟨entries, id, now, after, rfl, hid, hnew id hkey, hnow, hafter, rfl⟩⟩

/-- Response records that are read add their ids in order. -/
theorem keys_addAll {responses next : Responses} {records : List Value}
    (h : records.foldlM Responses.add responses = .ok next) :
    next.keys = responses.keys ++ records.filterMap idOf? := by
  induction records generalizing responses with
  | nil =>
    cases h
    exact (List.append_nil _).symm
  | cons record rest ih =>
    rw [List.foldlM_cons] at h
    obtain ⟨middle, hrecord, hrest⟩ := bind_eq_ok.1 h
    obtain ⟨id, hid, hmiddle⟩ := keys_add hrecord
    rw [ih hrest, hmiddle, List.filterMap_cons_some hid, List.append_assoc]
    rfl

/-- Response records are read if they are some and their ids are distinct. -/
theorem succeeds_addAll {responses : Responses} {records : List Value} :
    Succeeds (records.foldlM Responses.add responses) ↔
      (∀ record ∈ records, record.IsTable IsResponse) ∧
        (responses.keys ++ records.filterMap idOf?).Nodup := by
  constructor
  · rintro ⟨next, h⟩
    refine ⟨?_, keys_addAll h ▸ next.nodup_keys⟩
    induction records generalizing responses with
    | nil => exact nofun
    | cons record rest ih =>
      rw [List.foldlM_cons] at h
      obtain ⟨middle, hrecord, hrest⟩ := bind_eq_ok.1 h
      exact List.forall_mem_cons.2 ⟨(succeeds_add.1 ⟨middle, hrecord⟩).1, ih hrest⟩
  · rintro ⟨hrecords, hnodup⟩
    induction records generalizing responses with
    | nil => exact ⟨responses, rfl⟩
    | cons record rest ih =>
      obtain ⟨hrecord, hrest⟩ := List.forall_mem_cons.1 hrecords
      have hnew : ∀ id ∈ idOf? record, id ∉ responses.keys := by
        intro id hid hmem
        rw [List.filterMap_cons_some hid] at hnodup
        exact (List.nodup_append.1 hnodup).2.2 id hmem id (List.mem_cons_self ..) rfl
      obtain ⟨next, hnext⟩ := succeeds_add.2 ⟨hrecord, hnew⟩
      obtain ⟨id, hid, hkeys⟩ := keys_add hnext
      rw [List.foldlM_cons]
      refine succeeds_bind.2 ⟨next, hnext, ih hrest ?_⟩
      rw [List.filterMap_cons_some hid] at hnodup
      rwa [hkeys, List.append_assoc, List.singleton_append]

end Responses

/-! ## Rules -/

/-- Facts to apply may be missing, but not be anything else than a list. -/
theorem succeeds_checkApplyFacts (id : String) {entries : List (String × Value)} :
    Succeeds (checkApplyFacts id entries) ↔ MayList "apply_facts" entries := by
  unfold checkApplyFacts MayList
  cases Entries.get? "apply_facts" entries with
  | none => simp
  | some value => cases value <;> simp

/-- The facts of criteria are read if they are texts whose alternatives all are. -/
theorem exists_facts_iff (id : String) (concept : Concept) {criteria : List (String × Value)} :
    (∃ items, textsUnder "facts" id (.ok []) criteria = .ok items ∧
      Succeeds (Criteria.expand concept items)) ↔
      ∀ facts ∈ Entries.get? "facts" criteria, facts.IsTexts IsCriterionGroup :=
  exists_textsUnder_nil_iff (Criteria.succeeds_expand concept)

/-- A rule record is read if it is one and names one of the responses. -/
theorem succeeds_readRule {responses : Responses} {record : Value} :
    Succeeds (readRule responses record) ↔ record.IsTable (IsRule responses.keys) := by
  constructor
  · rintro ⟨rules, h⟩
    obtain ⟨entries, id, criteria, name, concept, items, responseId, response, variants, rfl, hid,
      hcriteria, hname, hconcept, hitems, hresponse, hfound, happly, hvariants, _⟩ :=
      readRule_steps h
    have hfacts := (exists_facts_iff id concept).1 ⟨items, hitems, variants, hvariants⟩
    have hmem : responseId ∈ responses.keys :=
      OrderedMap.mem_keys_iff.2 (Option.isSome_iff_exists.2 ⟨response, hfound⟩)
    exact ⟨entries, rfl, ⟨id, textUnder?_eq_some_iff.1 hid⟩,
      ⟨criteria, tableUnder?_eq_some_iff.1 hcriteria, ⟨name, hname, concept, hconcept⟩, hfacts⟩,
      ⟨responseId, hmem, textUnder?_eq_some_iff.1 hresponse⟩,
      (succeeds_checkApplyFacts id).1 ⟨(), happly⟩⟩
  · rintro ⟨entries, rfl, ⟨id, hid⟩,
      ⟨criteria, hcriteria, ⟨name, hname, concept, hconcept⟩, hfacts⟩,
      ⟨responseId, hmem, hresponse⟩, happly⟩
    obtain ⟨response, hfound⟩ := Option.isSome_iff_exists.1 (OrderedMap.mem_keys_iff.1 hmem)
    obtain ⟨_, happly⟩ := (succeeds_checkApplyFacts id).2 happly
    obtain ⟨items, hitems, variants, hvariants⟩ := (exists_facts_iff id concept).2 hfacts
    refine ⟨variants.map fun criteria => ⟨id, criteria, response⟩, ?_⟩
    rw [readRule, recordId_eq_ok_iff.2 ⟨rfl, hid⟩]
    simp only [bind, Except.bind, hcriteria, hname, hconcept, hitems, hresponse, hfound, happly,
      hvariants, pure, Except.pure, Except.mapError]

/-! ## Whole documents -/

namespace Document

/-- The ids of the responses that are read are those of the document. -/
theorem keys_responses {value : Value} {responses : Responses}
    (h : (recordsOf .response value).foldlM Responses.add ∅ = .ok responses) :
    responses.keys = responseIds value :=
  Responses.keys_addAll h

/-- A document is read if it is one of the grammar. -/
theorem succeeds_ofValue {value : Value} : Succeeds (ofValue value) ↔ IsRuleDocument value := by
  have hempty : (∅ : Responses).keys = [] := rfl
  constructor
  · rintro ⟨document, h⟩
    obtain ⟨records, hrecords, hread⟩ := bind_eq_ok.1 h
    obtain rfl := Records.ofValue_ok hrecords
    obtain ⟨responses, hresponses, hrest⟩ := bind_eq_ok.1 hread
    obtain ⟨rules, hrules, _⟩ := bind_eq_ok.1 hrest
    obtain ⟨hall, hdistinct⟩ := Responses.succeeds_addAll.1 ⟨responses, hresponses⟩
    refine ⟨Records.succeeds_ofValue.1 ⟨_, hrecords⟩, hall, hdistinct, fun record hrecord => ?_⟩
    rw [← keys_responses hresponses]
    exact succeeds_readRule.1 (succeeds_mapM.1 ⟨rules, hrules⟩ record hrecord)
  · intro h
    obtain ⟨records, hrecords⟩ := Records.succeeds_ofValue.2 h.lists
    obtain rfl := Records.ofValue_ok hrecords
    have hdistinct : ((∅ : Responses).keys ++
        (recordsOf .response value).filterMap idOf?).Nodup := h.distinct
    obtain ⟨responses, hresponses⟩ := Responses.succeeds_addAll.2 ⟨h.responses, hdistinct⟩
    have hreads : ∀ record ∈ recordsOf .rule value, Succeeds (readRule responses record) := by
      intro record hrecord
      rw [succeeds_readRule, keys_responses hresponses]
      exact h.rules record hrecord
    obtain ⟨rules, hrules⟩ := succeeds_mapM.2 hreads
    exact ⟨_, bind_eq_ok.2 ⟨_, hrecords,
      bind_eq_ok.2 ⟨responses, hresponses, bind_eq_ok.2 ⟨rules, hrules, rfl⟩⟩⟩⟩

/-- What is counted of a document is its records. -/
theorem counts_of_ofValue {value : Value} {document : Document}
    (h : ofValue value = .ok document) :
    document.authoredRules = (recordsOf .rule value).length ∧
      document.responses = (recordsOf .response value).length := by
  obtain ⟨records, hrecords, hread⟩ := bind_eq_ok.1 h
  obtain rfl := Records.ofValue_ok hrecords
  obtain ⟨responses, hresponses, hrest⟩ := bind_eq_ok.1 hread
  obtain ⟨rules, hrules, hdocument⟩ := bind_eq_ok.1 hrest
  obtain ⟨hdefined, hentries⟩ := Responses.addAll_ok hresponses
  rw [← Except.ok.inj hdocument]
  refine ⟨rfl, ?_⟩
  have hlength := congrArg List.length hdefined
  rw [List.length_map, List.length_map] at hlength
  rw [OrderedMap.size, hentries, hlength]
  rfl

/-- Exactly the documents of the grammar are read; all others fail. Every record of a document that
is read defines its response or its rule, and the rule set has the variants of these rules, each as
often as it is authored: the more specific ones come first, and those of one specificity in the
order of the records. -/
theorem accepts_exactly (value : Value) :
    ((∃ document, ofValue value = .ok document) ↔ IsRuleDocument value) ∧
      ((∃ error, ofValue value = .error error) ↔ ¬ IsRuleDocument value) ∧
      ∀ document, ofValue value = .ok document →
        let variants := (rulesOf value).flatMap fun rule => rule.variants fun _ => true
        (recordsOf .response value).map authoredResponse? = (responsesOf value).map some ∧
        (recordsOf .rule value).map (authoredRule? (responsesOf value)) =
          (rulesOf value).map some ∧
        document.rules.rules.Perm variants ∧
        document.rules.rules.Pairwise (fun a b => b.specificity ≤ a.specificity) ∧
        (∀ n, document.rules.rules.filter (·.specificity = n) =
          variants.filter (·.specificity = n)) ∧
        document.authoredRules = (recordsOf .rule value).length ∧
        document.responses = (recordsOf .response value).length := by
  refine ⟨succeeds_ofValue, exists_error_iff.trans (not_congr succeeds_ofValue),
    fun document h => ?_⟩
  obtain ⟨hresponses, _, hrules, _, hset⟩ := ofValue_ok h
  obtain ⟨hauthored, hcount⟩ := counts_of_ofValue h
  have hperm :=
    RuleSet.perm_ofList ((rulesOf value).flatMap fun rule => rule.variants fun _ => true)
  have htiers := RuleSet.filter_ofList
    ((rulesOf value).flatMap fun rule => rule.variants fun _ => true)
  rw [← hset] at hperm htiers
  exact ⟨hresponses, hrules, hperm, document.rules.sorted, htiers, hauthored, hcount⟩

end Document

/-- A document about a lamp: the rule for the dark has alternatives and comes before the response
that it names, which is tagged. -/
def lampDocument : Value :=
  .table [("rule", .list [
      .table [("id", .str "wait"), ("response", .str "shine"),
        ("criteria", .table [("concept", .str "think_idle")])],
      .table [("id", .str "dark"), ("response", .str "shine"),
        ("criteria", .table [("concept", .str "ThinkIdle"),
          ("facts", .list [.str "Night || Cellar"])])]]),
    ("entries", .list [.table [("Response", .table [("id", .str "shine"),
      ("now", .list [.str "AddEntityFact Lamp 5"])])]])]

/-- The ids of rules and the keys that they ask for. -/
def outline (rules : List Rule) : List (String × List String) :=
  rules.map fun rule => (rule.id, rule.criteria.predicates.map (·.key))

/-- It is read as three rules: the two variants of the rule for the dark, which ask for one fact
each, and the rule that asks for none. -/
theorem lampDocument_accepted :
    IsRuleDocument lampDocument ∧ ∃ document, Document.ofValue lampDocument = .ok document ∧
      document.rules.rules.length = 3 ∧
      outline (document.rules.rules.filter (·.specificity = 1)) =
        [("dark", ["Night"]), ("dark", ["Cellar"])] ∧
      outline (document.rules.rules.filter (·.specificity = 0)) = [("wait", [])] := by
  obtain ⟨hgrammar, _, hread⟩ := Document.accepts_exactly lampDocument
  have hsome : (Document.ofValue lampDocument).toOption.isSome = true := by decide +kernel
  obtain ⟨document, hdocument⟩ := Option.isSome_iff_exists.1 hsome
  have hok := toOption_eq_some_iff.1 hdocument
  obtain ⟨_, _, hperm, _, htiers, _⟩ := hread document hok
  refine ⟨hgrammar.1 ⟨document, hok⟩, document, hok, ?_, ?_, ?_⟩
  · rw [hperm.length_eq]
    decide +kernel
  · rw [htiers]
    decide +kernel
  · rw [htiers]
    decide +kernel

end FactRules
