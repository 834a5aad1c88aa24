import FactRules.Notice
import FactRules.Reading.Action
import FactRules.Reading.Concept
import FactRules.Reading.Criterion

/-!
# Rule documents

A rule document is a table with responses and rules: in the lists `response` and `rule`, or as
tagged records `Response` and `Rule` in the list `entries`, or both ways at once. `Records.ofValue`
collects the records and `Records.read` reads them: all responses first, so a rule may come before
the response it names, then the rules, each of which gives one `Rule` for every choice from its
groups of alternatives. The first fault found is the error.
-/

namespace FactRules

/-- The two kinds of records. -/
inductive RecordKind where
  | response
  | rule
deriving DecidableEq, Repr

/-- The key of the list of records of a kind. -/
def RecordKind.key : RecordKind → String
  | response => "response"
  | rule => "rule"

/-- The tag of a record of a kind among the entries. -/
def RecordKind.tag : RecordKind → String
  | response => "Response"
  | rule => "Rule"

/-- What can be wrong with a rule document. -/
inductive DocumentError where
  | notTable (value : Value)
  | notTables (key : String)
  | badEntry (entry : Value)
  | unknownTag (tag : String)
  | recordNotTable (kind : RecordKind) (record : Value)
  | badId (kind : RecordKind) (record : Value)
  | duplicateResponse (id : String)
  | missing (key id : String)
  | notTexts (key id : String)
  | badCriteria (id : String)
  | noConcept (id : String)
  | badResponse (id : String)
  | unknownResponse (id response : String)
  | badApplyFacts (id : String)
  | action (error : ActionError)
  | concept (error : ConceptError)
  | criterion (error : CriterionError)

/-- The wording of each error. -/
def DocumentError.message : DocumentError → String
  | notTable value => value.shownAfter "rule data must be a table, got "
  | notTables key => key ++ " must be a list of tables"
  | badEntry entry =>
    entry.shownAfter "entries must each have exactly one of \"Response\" or \"Rule\", got "
  | unknownTag tag => "unknown entry kind \"" ++ tag ++ "\", expected \"Response\" or \"Rule\""
  | recordNotTable kind record => record.shownAfter (kind.key ++ " entries must be tables, got ")
  | badId kind record => record.shownAfter ("missing or bad id in " ++ kind.key ++ " ")
  | duplicateResponse id => "duplicate response id " ++ id
  | missing key id => "no " ++ key ++ " in " ++ id
  | notTexts key id => key ++ " for " ++ id ++ " must be a list of strings"
  | badCriteria id => "missing or bad criteria in rule " ++ id
  | noConcept id => "no concept in criteria for rule " ++ id
  | badResponse id => "missing or bad response in rule " ++ id
  | unknownResponse id response => "rule " ++ id ++ " had unknown response " ++ response
  | badApplyFacts id => "apply_facts for " ++ id ++ " must be a list"
  | action error => error.message
  | concept error => error.message
  | criterion error => error.message

/-! ## Collecting the records -/

/-- The records of a document, each list in the order of the document. -/
structure Records where
  responses : List Value
  rules : List Value

namespace Records

/-- The list under a key of a document; it is empty if the key is absent. -/
def listUnder (key : String) (document : List (String × Value)) :
    Except DocumentError (List Value) :=
  match Entries.get? key document with
  | none => .ok []
  | some (.list items) => .ok items
  | some _ => .error (.notTables key)

/-- Adds the record of a tagged entry at the end of its list. -/
def addEntry (records : Records) : Value → Except DocumentError Records
  | .table [(tag, record)] =>
    if tag = RecordKind.response.tag then
      .ok { records with responses := records.responses ++ [record] }
    else if tag = RecordKind.rule.tag then .ok { records with rules := records.rules ++ [record] }
    else .error (.unknownTag tag)
  | entry => .error (.badEntry entry)

/-- The records of a document: those in lists of their own before the tagged ones. -/
def ofValue : Value → Except DocumentError Records
  | .table document => do
    let responses ← listUnder RecordKind.response.key document
    let rules ← listUnder RecordKind.rule.key document
    let entries ← listUnder "entries" document
    entries.foldlM addEntry ⟨responses, rules⟩
  | value => .error (.notTable value)

end Records

/-! ## Reading the records -/

/-- The entries and the id of a record. -/
def recordId (kind : RecordKind) : Value → Except DocumentError (List (String × Value) × String)
  | .table record =>
    match Entries.get? "id" record with
    | some (.str id) => .ok (record, id)
    | _ => .error (.badId kind (.table record))
  | record => .error (.recordNotTable kind record)

/-- Whether a value is a text. -/
def Value.isText : Value → Bool
  | .str _ => true
  | _ => false

/-- The list of texts under a key of the record `id`, or `absent` if the key is absent. -/
def textsUnder (key id : String) (absent : Except DocumentError (List Value))
    (record : List (String × Value)) : Except DocumentError (List Value) :=
  match Entries.get? key record with
  | none => absent
  | some (.list items) => if items.all Value.isText then .ok items else .error (.notTexts key id)
  | some _ => .error (.notTexts key id)

/-- The actions under a key of the record `id`. -/
def actionsUnder (key id : String) (absent : Except DocumentError (List Value))
    (record : List (String × Value)) : Except DocumentError ActionSet := do
  let texts ← textsUnder key id absent record
  (ActionSet.ofValues texts).mapError .action

/-- The responses of a document by id. -/
abbrev Responses := OrderedMap String Response

/-- Reads a response record and adds it to the responses read before. -/
def Responses.add (responses : Responses) (record : Value) : Except DocumentError Responses := do
  let (entries, id) ← recordId .response record
  if responses.contains id then throw (.duplicateResponse id)
  let now ← actionsUnder "now" id (.error (.missing "now" id)) entries
  let after ← actionsUnder "after" id (.ok []) entries
  return responses.insert id ⟨now, after⟩

/-- Refuses facts to apply that are no list; their content has no meaning yet. -/
def checkApplyFacts (id : String) (record : List (String × Value)) : Except DocumentError Unit :=
  match Entries.get? "apply_facts" record with
  | none | some (.list _) => .ok ()
  | some _ => .error (.badApplyFacts id)

/-- Reads a rule record: one rule for each choice from its groups of alternatives. -/
def readRule (responses : Responses) (record : Value) : Except DocumentError (List Rule) := do
  let (entries, id) ← recordId .rule record
  let criteria ←
    match Entries.get? "criteria" entries with
    | some (.table criteria) => pure criteria
    | _ => throw (.badCriteria id)
  let name ←
    match Entries.get? "concept" criteria with
    | some name => pure name
    | none => throw (.noConcept id)
  let concept ← (Concept.ofValue name).mapError .concept
  let facts ← textsUnder "facts" id (.ok []) criteria
  let responseId ←
    match Entries.get? "response" entries with
    | some (.str responseId) => pure responseId
    | _ => throw (.badResponse id)
  let response ←
    match responses.get? responseId with
    | some response => pure response
    | none => throw (.unknownResponse id responseId)
  checkApplyFacts id entries
  let variants ← (Criteria.expand concept facts).mapError .criterion
  return variants.map fun criteria => ⟨id, criteria, response⟩

/-- What reading a document gives: its rules, and how many rules and responses were authored. -/
structure Document where
  rules : RuleSet
  authoredRules : Nat
  responses : Nat

/-- What there is to report of a document that was read. -/
def Document.notice (document : Document) : Notice :=
  .rulesLoaded document.authoredRules document.rules.size document.responses

/-- Reads the records of a document. -/
def Records.read (records : Records) : Except DocumentError Document := do
  let responses ← records.responses.foldlM Responses.add ∅
  let rules ← records.rules.mapM (readRule responses)
  return ⟨.ofList rules.flatten, records.rules.length, responses.size⟩

/-- Reads a rule document. -/
def Document.ofValue (document : Value) : Except DocumentError Document := do
  (← Records.ofValue document).read

end FactRules
