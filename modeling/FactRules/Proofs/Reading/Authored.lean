import FactRules.Proofs.Reading.Expansion
import FactRules.Reading.Document

/-!
# What a document says

The rules and responses that a document defines can be read off it without any checks: `responsesOf`
and `rulesOf` give what the records say, as far as they say something. `Document.ofValue_ok` says
that in a document that is accepted every record says something, that response ids are distinct, and
that the rule set is made of the variants of the authored rules in the order of the document.
-/

namespace FactRules

/-! ## Records and their fields -/

/-- The list under a key, empty if there is none. -/
def itemsUnder (key : String) (entries : List (String × Value)) : List Value :=
  match Entries.get? key entries with
  | some (.list items) => items
  | _ => []

/-- The record of an entry that is tagged with a kind. -/
def taggedRecord? (kind : RecordKind) : Value → Option Value
  | .table [(tag, record)] => if tag = kind.tag then some record else none
  | _ => none

/-- The records of a kind: those in the list of the kind, then those tagged with the kind. -/
def recordsOf (kind : RecordKind) : Value → List Value
  | .table document =>
    itemsUnder kind.key document ++
      (itemsUnder "entries" document).filterMap (taggedRecord? kind)
  | _ => []

/-- The text of a value that is one. -/
def Value.str? : Value → Option String
  | .str text => some text
  | _ => none

/-- The text under a key. -/
def textUnder? (key : String) (entries : List (String × Value)) : Option String :=
  (Entries.get? key entries).bind Value.str?

/-- The table under a key. -/
def tableUnder? (key : String) (entries : List (String × Value)) :
    Option (List (String × Value)) :=
  match Entries.get? key entries with
  | some (.table inner) => some inner
  | _ => none

/-- The texts of the list under a key, or `absent` if the key is absent. -/
def textsUnder? (key : String) (absent : Option (List String)) (entries : List (String × Value)) :
    Option (List String) :=
  match Entries.get? key entries with
  | none => absent
  | some (.list items) => items.mapM Value.str?
  | some _ => none

/-- The actions under a key, or those of `absent` if the key is absent. -/
def actionsUnder? (key : String) (absent : Option (List String))
    (entries : List (String × Value)) : Option ActionSet :=
  (textsUnder? key absent entries).bind fun texts =>
    (texts.mapM fun text => Action.ofText text.toList).toOption

/-! ## Authored responses and rules -/

/-- The response that a record defines, with its id. -/
def authoredResponse? : Value → Option (String × Response)
  | .table record => do
    let id ← textUnder? "id" record
    let now ← actionsUnder? "now" none record
    let after ← actionsUnder? "after" (some []) record
    return (id, ⟨now, after⟩)
  | _ => none

/-- The responses that a document defines, with their ids. -/
def responsesOf (document : Value) : List (String × Response) :=
  (recordsOf .response document).filterMap authoredResponse?

/-- A rule as it is written: its facts are texts, any of which may be a group of alternatives. -/
structure AuthoredRule where
  id : String
  concept : Concept
  facts : List String
  response : Response

/-- The rule that a record defines, given the responses by id. -/
def authoredRule? (responses : List (String × Response)) : Value → Option AuthoredRule
  | .table record => do
    let id ← textUnder? "id" record
    let criteria ← tableUnder? "criteria" record
    let concept ← (Entries.get? "concept" criteria).bind fun name =>
      (Concept.ofValue name).toOption
    let facts ← textsUnder? "facts" (some []) criteria
    let response ← (textUnder? "response" record).bind fun id => Entries.get? id responses
    return ⟨id, concept, facts, response⟩
  | _ => none

/-- The rules that a document defines. -/
def rulesOf (document : Value) : List AuthoredRule :=
  (recordsOf .rule document).filterMap (authoredRule? (responsesOf document))

/-- The variants of an authored rule whose criterions all pass a test: there is one for each choice
of such criterions from the texts. -/
def AuthoredRule.variants (rule : AuthoredRule) (p : Criterion → Bool) : List Rule :=
  (Criteria.choices ((Criteria.groupsFirst rule.facts).map fun text =>
      (Criterion.alternatives text).filter p)).map
    fun chosen => ⟨rule.id, ⟨rule.concept, chosen⟩, rule.response⟩

/-! ## Collecting the records -/

namespace Records

/-- A list that is read is the one under the key, or empty if there is no such key. -/
theorem listUnder_ok {key : String} {document : List (String × Value)} {items : List Value}
    (h : listUnder key document = .ok items) : items = itemsUnder key document := by
  unfold listUnder at h
  split at h
  · next hget =>
    cases h
    rw [itemsUnder, hget]
  · next hget =>
    cases h
    rw [itemsUnder, hget]
  · cases h

/-- An entry that is accepted adds the record that is tagged in it to the list of its kind. -/
theorem addEntry_ok {records next : Records} {entry : Value}
    (h : records.addEntry entry = .ok next) :
    next = ⟨records.responses ++ (taggedRecord? .response entry).toList,
      records.rules ++ (taggedRecord? .rule entry).toList⟩ := by
  unfold addEntry at h
  split at h
  · next tag record =>
    split at h
    · next htag =>
      cases h
      subst htag
      simp [taggedRecord?, RecordKind.tag]
    · next hresponse =>
      split at h
      · next htag =>
        cases h
        subst htag
        simp [taggedRecord?, RecordKind.tag]
      · cases h
  · cases h

/-- Entries that are read are filed by their tags, responses and rules each in their order. -/
theorem addEntries_ok {records next : Records} {entries : List Value}
    (h : entries.foldlM addEntry records = .ok next) :
    next = ⟨records.responses ++ entries.filterMap (taggedRecord? .response),
      records.rules ++ entries.filterMap (taggedRecord? .rule)⟩ := by
  induction entries generalizing records with
  | nil =>
    cases h
    simp
  | cons entry rest ih =>
    rw [List.foldlM_cons] at h
    obtain ⟨middle, hentry, hrest⟩ := bind_eq_ok.1 h
    rw [ih hrest, addEntry_ok hentry]
    simp only [List.filterMap_eq_flatMap_toList, List.flatMap_cons, List.append_assoc]

/-- The records of a document that is accepted. -/
theorem ofValue_ok {document : Value} {records : Records} (h : ofValue document = .ok records) :
    records = ⟨recordsOf .response document, recordsOf .rule document⟩ := by
  unfold ofValue at h
  split at h
  · next entries =>
    obtain ⟨responses, hresponses, h⟩ := bind_eq_ok.1 h
    obtain ⟨rules, hrules, h⟩ := bind_eq_ok.1 h
    obtain ⟨tagged, htagged, h⟩ := bind_eq_ok.1 h
    rw [addEntries_ok h, listUnder_ok hresponses, listUnder_ok hrules, listUnder_ok htagged]
    rfl
  · cases h

end Records

/-! ## Reading the records -/

/-- A record whose id is read is a table with a text as its id. -/
theorem recordId_ok {kind : RecordKind} {record : Value} {entries : List (String × Value)}
    {id : String} (h : recordId kind record = .ok (entries, id)) :
    record = .table entries ∧ textUnder? "id" entries = some id := by
  unfold recordId at h
  split at h
  · next entries =>
    split at h
    · next hget =>
      cases h
      rw [textUnder?, hget]
      exact ⟨rfl, rfl⟩
    · cases h
  · cases h

/-- A list of which all values are texts is a list of texts. -/
theorem exists_eq_map_str {items : List Value} (h : items.all Value.isText = true) :
    ∃ texts, items = texts.map .str ∧ items.mapM Value.str? = some texts := by
  induction items with
  | nil => exact ⟨[], rfl, rfl⟩
  | cons item rest ih =>
    rw [List.all_cons, Bool.and_eq_true] at h
    obtain ⟨texts, htexts, hread⟩ := ih h.2
    cases item with
    | str text =>
      refine ⟨text :: texts, by rw [htexts]; rfl, ?_⟩
      rw [List.mapM_cons, hread]
      rfl
    | _ => cases h.1

/-- Texts that are read are those under the key, or what stands for an absent key. -/
theorem textsUnder_ok {key id : String} {absent : Except DocumentError (List Value)}
    {entries : List (String × Value)} {items : List Value} (other : Option (List String))
    (habsent : ∀ items, absent = .ok items → ∃ texts, items = texts.map .str ∧ other = some texts)
    (h : textsUnder key id absent entries = .ok items) :
    ∃ texts, items = texts.map .str ∧ textsUnder? key other entries = some texts := by
  unfold textsUnder at h
  split at h
  · next hget =>
    rw [textsUnder?, hget]
    exact habsent items h
  · next hget =>
    rw [textsUnder?, hget]
    split at h
    · next htexts =>
      cases h
      exact exists_eq_map_str htexts
    · cases h
  · cases h

/-- Actions that are read are those under the key, or those that stand for an absent key. -/
theorem actionsUnder_ok {key id : String} {absent : Except DocumentError (List Value)}
    {entries : List (String × Value)} {actions : ActionSet} (other : Option (List String))
    (habsent : ∀ items, absent = .ok items → ∃ texts, items = texts.map .str ∧ other = some texts)
    (h : actionsUnder key id absent entries = .ok actions) :
    actionsUnder? key other entries = some actions := by
  obtain ⟨items, hitems, h⟩ := bind_eq_ok.1 h
  obtain ⟨texts, rfl, htexts⟩ := textsUnder_ok other habsent hitems
  rw [mapError_eq_ok, ActionSet.ofValues, List.mapM_map] at h
  rw [actionsUnder?, htexts, Option.bind_some]
  exact toOption_eq_some_iff.2 h

/-- A response record that is read adds its response, under an id that no response had before. -/
theorem Responses.add_ok {responses next : Responses} {record : Value}
    (h : responses.add record = .ok next) :
    ∃ entry, authoredResponse? record = some entry ∧
      next.entries = responses.entries ++ [entry] := by
  obtain ⟨⟨entries, id⟩, hrecord, hread⟩ := bind_eq_ok.1 h
  obtain ⟨rfl, hid⟩ := recordId_ok hrecord
  dsimp only at hread
  split at hread
  · cases hread
  · next hnew =>
    obtain ⟨now, hnow, hrest⟩ := bind_eq_ok.1 hread
    obtain ⟨after, hafter, hinsert⟩ := bind_eq_ok.1 hrest
    have hnow' := actionsUnder_ok none (fun _ h => by cases h) hnow
    have hafter' := actionsUnder_ok (some []) (fun _ h => ⟨[], (Except.ok.inj h).symm, rfl⟩) hafter
    have hkey : id ∉ responses.keys := fun hmem => hnew (OrderedMap.mem_keys_iff.1 hmem)
    refine ⟨(id, ⟨now, after⟩), ?_, ?_⟩
    · simp only [authoredResponse?, hid, hnow', hafter']
      rfl
    · rw [← Except.ok.inj hinsert]
      exact OrderedMap.entries_insert_of_not_mem hkey _

/-- Response records that are read add their responses in order. -/
theorem Responses.addAll_ok {responses next : Responses} {records : List Value}
    (h : records.foldlM Responses.add responses = .ok next) :
    records.map authoredResponse? = (records.filterMap authoredResponse?).map some ∧
      next.entries = responses.entries ++ records.filterMap authoredResponse? := by
  induction records generalizing responses with
  | nil =>
    cases h
    exact ⟨rfl, (List.append_nil _).symm⟩
  | cons record rest ih =>
    rw [List.foldlM_cons] at h
    obtain ⟨middle, hrecord, hrest⟩ := bind_eq_ok.1 h
    obtain ⟨entry, hentry, hmiddle⟩ := Responses.add_ok hrecord
    obtain ⟨hall, hnext⟩ := ih hrest
    rw [List.map_cons, List.filterMap_cons_some hentry, List.map_cons, hentry, hall]
    refine ⟨rfl, ?_⟩
    rw [hnext, hmiddle, List.append_assoc]
    rfl

/-- The steps in which a rule record is read. -/
theorem readRule_steps {responses : Responses} {record : Value} {rules : List Rule}
    (h : readRule responses record = .ok rules) :
    ∃ entries id criteria name concept items responseId response variants,
      record = .table entries ∧ textUnder? "id" entries = some id ∧
      tableUnder? "criteria" entries = some criteria ∧
      Entries.get? "concept" criteria = some name ∧ Concept.ofValue name = .ok concept ∧
      textsUnder "facts" id (.ok []) criteria = .ok items ∧
      textUnder? "response" entries = some responseId ∧
      responses.get? responseId = some response ∧ checkApplyFacts id entries = .ok () ∧
      Criteria.expand concept items = .ok variants ∧
      rules = variants.map fun criteria => ⟨id, criteria, response⟩ := by
  obtain ⟨⟨entries, id⟩, hrecord, hread⟩ := bind_eq_ok.1 h
  obtain ⟨rfl, hid⟩ := recordId_ok hrecord
  clear h hrecord
  dsimp only at hread
  -- What is looked up has to be there: each other branch is an error.
  obtain ⟨criteria, hcriteria⟩ : ∃ criteria,
      Entries.get? "criteria" entries = some (.table criteria) := by
    split at hread
    · next criteria hcriteria => exact ⟨criteria, hcriteria⟩
    · cases hread
  simp only [hcriteria, pure_bind] at hread
  obtain ⟨name, hname⟩ : ∃ name, Entries.get? "concept" criteria = some name := by
    split at hread
    · next name hname => exact ⟨name, hname⟩
    · cases hread
  simp only [hname] at hread
  obtain ⟨concept, hconcept, hafter⟩ := bind_eq_ok.1 hread
  obtain ⟨items, hitems, hanswer⟩ := bind_eq_ok.1 hafter
  obtain ⟨responseId, hresponse⟩ : ∃ responseId,
      Entries.get? "response" entries = some (.str responseId) := by
    split at hanswer
    · next responseId hresponse => exact ⟨responseId, hresponse⟩
    · cases hanswer
  simp only [hresponse] at hanswer
  obtain ⟨response, hfound⟩ : ∃ response, responses.get? responseId = some response := by
    split at hanswer
    · next response hfound => exact ⟨response, hfound⟩
    · cases hanswer
  simp only [hfound] at hanswer
  obtain ⟨_, happly, hexpand⟩ := bind_eq_ok.1 hanswer
  obtain ⟨variants, hvariants, hrules⟩ := bind_eq_ok.1 hexpand
  refine ⟨entries, id, criteria, name, concept, items, responseId, response, variants,
    rfl, hid, ?_, hname, mapError_eq_ok.1 hconcept, hitems, ?_, hfound, happly,
    mapError_eq_ok.1 hvariants, (Except.ok.inj hrules).symm⟩
  · rw [tableUnder?, hcriteria]
  · rw [textUnder?, hresponse]
    rfl

/-- A rule record that is read defines a rule, is read as its variants, and has no text with a piece
that stands for no criterion. -/
theorem readRule_ok {responses : Responses} {record : Value} {rules : List Rule}
    (h : readRule responses record = .ok rules) :
    ∃ rule, authoredRule? responses.entries record = some rule ∧
      rules = rule.variants (fun _ => true) ∧
      ∀ text ∈ rule.facts,
        (Criterion.alternatives text).length = (Text.alternatives text.toList).length := by
  obtain ⟨entries, id, criteria, name, concept, items, responseId, response, variants, rfl, hid,
    hcriteria, hname, hconcept, hitems, hresponse, hfound, _, hvariants, rfl⟩ := readRule_steps h
  obtain ⟨facts, rfl, hfacts⟩ :=
    textsUnder_ok (some []) (fun _ h => ⟨[], (Except.ok.inj h).symm, rfl⟩) hitems
  obtain ⟨hpieces, rfl⟩ := Criteria.expand_ok hvariants
  have hfound' : Entries.get? responseId responses.entries = some response := hfound
  refine ⟨⟨id, concept, facts, response⟩, ?_, ?_, hpieces⟩
  · simp only [authoredRule?, hid, hcriteria, hname, hfacts, hresponse, Option.bind_eq_bind,
      Option.bind_some, toOption_eq_some_iff.2 hconcept, hfound']
    rfl
  · simp [AuthoredRule.variants, Function.comp_def]

/-- Rule records that are read define rules and are read as their variants, in order. -/
theorem readRules_ok {responses : Responses} {records : List Value} {rules : List (List Rule)}
    (h : records.mapM (readRule responses) = .ok rules) :
    records.map (authoredRule? responses.entries) =
        (records.filterMap (authoredRule? responses.entries)).map some ∧
      rules = (records.filterMap (authoredRule? responses.entries)).map
        (fun rule => rule.variants fun _ => true) ∧
      ∀ rule ∈ records.filterMap (authoredRule? responses.entries), ∀ text ∈ rule.facts,
        (Criterion.alternatives text).length = (Text.alternatives text.toList).length := by
  induction records generalizing rules with
  | nil =>
    cases h
    exact ⟨rfl, rfl, nofun⟩
  | cons record rest ih =>
    rw [List.mapM_cons] at h
    obtain ⟨first, hrecord, hafter⟩ := bind_eq_ok.1 h
    obtain ⟨others, hrest, hrules⟩ := bind_eq_ok.1 hafter
    obtain ⟨rule, hrule, rfl, hpieces⟩ := readRule_ok hrecord
    obtain ⟨hall, rfl, hothers⟩ := ih hrest
    rw [List.filterMap_cons_some hrule, ← Except.ok.inj hrules]
    refine ⟨?_, rfl, ?_⟩
    · rw [List.map_cons, List.map_cons, hrule, hall]
    · intro other hother
      rcases List.mem_cons.1 hother with rfl | hother
      · exact hpieces
      · exact hothers other hother

/-! ## Whole documents -/

/-- In a document that is accepted every record says something, response ids are distinct, every
piece of every text stands for a criterion, and the rule set is made of the variants of the authored
rules in the order of the document. -/
theorem Document.ofValue_ok {value : Value} {document : Document}
    (h : Document.ofValue value = .ok document) :
    (recordsOf .response value).map authoredResponse? = (responsesOf value).map some ∧
      ((responsesOf value).map Prod.fst).Nodup ∧
      (recordsOf .rule value).map (authoredRule? (responsesOf value)) =
        (rulesOf value).map some ∧
      (∀ rule ∈ rulesOf value, ∀ text ∈ rule.facts,
        (Criterion.alternatives text).length = (Text.alternatives text.toList).length) ∧
      document.rules =
        .ofList ((rulesOf value).flatMap fun rule => rule.variants fun _ => true) := by
  obtain ⟨records, hrecords, hread⟩ := bind_eq_ok.1 h
  obtain rfl := Records.ofValue_ok hrecords
  obtain ⟨responses, hresponses, hrest⟩ := bind_eq_ok.1 hread
  obtain ⟨rules, hrules, hdocument⟩ := bind_eq_ok.1 hrest
  obtain ⟨hdefined, hentries⟩ := Responses.addAll_ok hresponses
  obtain ⟨hauthored, hvariants, hpieces⟩ := readRules_ok hrules
  have hresponsesOf : responses.entries = responsesOf value := hentries
  rw [hresponsesOf] at hauthored hvariants hpieces
  refine ⟨hdefined, hresponsesOf ▸ responses.nodup_keys, hauthored, hpieces, ?_⟩
  rw [← Except.ok.inj hdocument, hvariants, List.flatMap_def]
  rfl

end FactRules
