import FactRules.Proofs.Reading.Grammar

/-!
# The two forms of rule documents

The records of a document stand in lists of their own or, tagged, among its entries. Collecting the
records puts a tagged record after the records of its kind that came before it and looks into none
(`Records.addEntries_of_tagging`), so it does not matter which records at the end of the two lists
are tagged, nor how the entries with them are interleaved: `Document.forms_interchangeable`.
-/

namespace FactRules

/-! ## Lists and tagged records -/

/-- A document has a list under a key. If the list is empty, the key may be absent. -/
def HoldsList (key : String) (items : List Value) (document : List (String × Value)) : Prop :=
  Entries.get? key document = some (.list items) ∨
    Entries.get? key document = none ∧ items = []

/-- The three lists of a document. -/
structure HoldsLists (responses rules entries : List Value) (document : List (String × Value)) :
    Prop where
  responses : HoldsList "response" responses document
  rules : HoldsList "rule" rules document
  entries : HoldsList "entries" entries document

/-- Entries that are tagged responses and tagged rules, the ones and the others in their order. -/
inductive Tagging : (responses rules entries : List Value) → Prop where
  | nil : Tagging [] [] []
  | response (record : Value) {responses rules entries : List Value}
      (h : Tagging responses rules entries) :
      Tagging (record :: responses) rules (.table [("Response", record)] :: entries)
  | rule (record : Value) {responses rules entries : List Value}
      (h : Tagging responses rules entries) :
      Tagging responses (record :: rules) (.table [("Rule", record)] :: entries)

variable {responses rules taggedResponses taggedRules entries : List Value}

/-- Tagged entries are the records that are tagged in them, interleaved. -/
theorem tagging_of_isTagged (h : ∀ entry ∈ entries, IsTagged entry) :
    Tagging (entries.filterMap (taggedRecord? .response))
      (entries.filterMap (taggedRecord? .rule)) entries := by
  induction entries with
  | nil => exact .nil
  | cons entry rest ih =>
    obtain ⟨⟨kind, record, rfl⟩, hrest⟩ := List.forall_mem_cons.1 h
    cases kind with
    | response => exact .response record (ih hrest)
    | rule => exact .rule record (ih hrest)

namespace Records

/-- A document that holds a list under a key, be it by leaving an empty one out, has this list
read. -/
theorem listUnder_of_holds {key : String} {items : List Value} {document : List (String × Value)}
    (h : HoldsList key items document) : listUnder key document = .ok items := by
  rcases h with h | ⟨h, rfl⟩
  · rw [listUnder, h]
  · rw [listUnder, h]

/-- However tagged records are interleaved, each comes after those of its kind. -/
theorem addEntries_of_tagging (h : Tagging taggedResponses taggedRules entries)
    (records : Records) :
    entries.foldlM addEntry records =
      .ok ⟨records.responses ++ taggedResponses, records.rules ++ taggedRules⟩ := by
  induction h generalizing records with
  | nil =>
    rw [List.append_nil, List.append_nil]
    rfl
  | response record h ih =>
    have hstep : addEntry records (.table [("Response", record)]) =
        .ok { records with responses := records.responses ++ [record] } := rfl
    rw [List.foldlM_cons, hstep]
    refine (ih _).trans ?_
    rw [List.append_assoc, List.singleton_append]
  | rule record h ih =>
    have hstep : addEntry records (.table [("Rule", record)]) =
        .ok { records with rules := records.rules ++ [record] } := rfl
    rw [List.foldlM_cons, hstep]
    refine (ih _).trans ?_
    rw [List.append_assoc, List.singleton_append]

/-- The records of a document are those of its lists and then the tagged ones. -/
theorem ofValue_of_holds {document : List (String × Value)}
    (h : HoldsLists responses rules entries document)
    (htagging : Tagging taggedResponses taggedRules entries) :
    ofValue (.table document) = .ok ⟨responses ++ taggedResponses, rules ++ taggedRules⟩ := by
  have hresponses : listUnder RecordKind.response.key document = .ok responses :=
    listUnder_of_holds h.responses
  have hrules : listUnder RecordKind.rule.key document = .ok rules := listUnder_of_holds h.rules
  rw [ofValue, hresponses, hrules, listUnder_of_holds h.entries]
  exact addEntries_of_tagging htagging ⟨responses, rules⟩

end Records

namespace Document

/-- A document is read as its records are. -/
theorem ofValue_of_holds {document : List (String × Value)}
    (h : HoldsLists responses rules entries document)
    (htagging : Tagging taggedResponses taggedRules entries) :
    ofValue (.table document) =
      (Records.mk (responses ++ taggedResponses) (rules ++ taggedRules)).read := by
  rw [ofValue, Records.ofValue_of_holds h htagging]
  rfl

/-- A document with tagged entries is read as the document that has all of its records in lists. -/
theorem ofValue_listForm {document : List (String × Value)}
    (h : HoldsLists responses rules entries document)
    (htagged : ∀ entry ∈ entries, IsTagged entry) :
    ofValue (.table document) = ofValue (.table
      [("response", .list (responses ++ entries.filterMap (taggedRecord? .response))),
        ("rule", .list (rules ++ entries.filterMap (taggedRecord? .rule)))]) := by
  have hlists : HoldsLists (responses ++ entries.filterMap (taggedRecord? .response))
      (rules ++ entries.filterMap (taggedRecord? .rule)) []
      [("response", .list (responses ++ entries.filterMap (taggedRecord? .response))),
        ("rule", .list (rules ++ entries.filterMap (taggedRecord? .rule)))] :=
    ⟨.inl rfl, .inl rfl, .inr ⟨rfl, rfl⟩⟩
  rw [ofValue_of_holds h (tagging_of_isTagged htagged), ofValue_of_holds hlists .nil,
    List.append_nil, List.append_nil]

/-- The two forms of a document are interchangeable. Take a document that has all of its records in
lists, and one in which records at the end of both lists are tagged entries instead, interleaved in
any way: both are read as these records are, to the same rules in the same order with the same
responses and counts, or to the same error. -/
theorem forms_interchangeable {listed mixed : List (String × Value)}
    (hlisted : HoldsLists (responses ++ taggedResponses) (rules ++ taggedRules) [] listed)
    (hmixed : HoldsLists responses rules entries mixed)
    (htagging : Tagging taggedResponses taggedRules entries) :
    ofValue (.table mixed) = ofValue (.table listed) ∧
      ofValue (.table mixed) =
        (Records.mk (responses ++ taggedResponses) (rules ++ taggedRules)).read := by
  have hread := ofValue_of_holds hmixed htagging
  have hreadLists := ofValue_of_holds hlisted .nil
  rw [List.append_nil, List.append_nil] at hreadLists
  exact ⟨hread.trans hreadLists.symm, hread⟩

/-- A response that says something. -/
def greeting : Value :=
  .table [("id", .str "greeting"), ("now", .list [.str "RandomText hello"])]

/-- A rule that names the response. -/
def greetingRule : Value :=
  .table [("id", .str "greet"), ("criteria", .table [("concept", .str "think_idle")]),
    ("response", .str "greeting")]

/-- The document with both in lists. -/
def greetingLists : List (String × Value) :=
  [("response", .list [greeting]), ("rule", .list [greetingRule])]

/-- Both as entries, the rule before the response that it names. -/
def greetingEntries : List Value :=
  [.table [("Rule", greetingRule)], .table [("Response", greeting)]]

/-- A rule that comes before its response is read as if both were in lists. -/
theorem rule_before_response_read :
    (HoldsLists ([] ++ [greeting]) ([] ++ [greetingRule]) [] greetingLists ∧
        HoldsLists [] [] greetingEntries [("entries", .list greetingEntries)] ∧
        Tagging [greeting] [greetingRule] greetingEntries) ∧
      ofValue (.table [("entries", .list greetingEntries)]) = ofValue (.table greetingLists) ∧
      (ofValue (.table greetingLists)).toOption.map
        (fun document => (document.authoredRules, document.responses)) = some (1, 1) := by
  have hlisted : HoldsLists ([] ++ [greeting]) ([] ++ [greetingRule]) [] greetingLists :=
    ⟨.inl rfl, .inl rfl, .inr ⟨rfl, rfl⟩⟩
  have hmixed : HoldsLists [] [] greetingEntries [("entries", .list greetingEntries)] :=
    ⟨.inr ⟨rfl, rfl⟩, .inr ⟨rfl, rfl⟩, .inl rfl⟩
  have htagging : Tagging [greeting] [greetingRule] greetingEntries :=
    .rule greetingRule (.response greeting .nil)
  refine ⟨⟨hlisted, hmixed, htagging⟩, (forms_interchangeable hlisted hmixed htagging).1, ?_⟩
  decide +kernel

end Document

end FactRules
