import FactRules.Numeral
import FactRules.Rule.Criteria
import FactRules.Text.Pieces
import FactRules.Value

/-!
# Criteria as texts

A criterion is written `KEY` (the fact is one), `KEY !` (it is zero), `KEY < NUMBER`,
`KEY > NUMBER`, `KEY = NUMBER` or `KEY = TEXT`. Ends that are numbers are rounded to singles, as
facts are, so a fact is compared with what it would be if it were the end. An end that is a text
is the value that stands for the text.

In the facts of a rule a text may be a group of alternatives separated by `||`
(`Criteria.expand`): there is then one `Criteria` for each choice of an alternative from each group.
`Criteria.ofValue` reads a list without groups.
-/

namespace FactRules

/-- Why a text, or a list of texts, is no criterion or criteria. -/
inductive CriterionError where
  | notText (value : Value)
  | badMark (mark text : String)
  | badRelation (relation text : String)
  | badTextRelation (relation text : String)
  | badLength (text : String) (terms : Nat)
  | groupNotAllowed (text : String)
  | notList (value : Value)

/-- The wording of each error. -/
def CriterionError.message : CriterionError → String
  | notText value => value.shownAfter "criterion must be a string, got "
  | badMark mark text =>
    "bad operator \"" ++ mark ++ "\" in criterion \"" ++ text ++ "\", expected \"!\""
  | badRelation relation text =>
    "bad operator \"" ++ relation ++ "\" in criterion \"" ++ text ++
      "\", expected one of \"<\", \">\", \"=\""
  | badTextRelation relation text =>
    "bad operator \"" ++ relation ++ "\" for string value in criterion \"" ++ text ++
      "\", expected \"=\""
  | badLength text terms =>
    "criterion \"" ++ text ++ "\" must have 1, 2 or 3 terms, got " ++ toString terms
  | groupNotAllowed text => "\"||\" is only allowed in rule criteria, got \"" ++ text ++ "\""
  | notList value => value.shownAfter "criteria must be a list of strings, got "

namespace Criterion

/-- The criterion that a fact stands in the relation to a number; none if it is no relation. -/
def ofRelation? (key : String) (relation : List Char) (bound : Single) : Option Criterion :=
  match relation with
  | ['<'] => some ⟨key, .infinity true, bound.toDouble⟩
  | ['>'] => some ⟨key, bound.toDouble, .infinity false⟩
  | ['='] => some ⟨key, bound.toDouble, bound.toDouble⟩
  | _ => none

/-- Reads a criterion. -/
def ofText (text : List Char) : Except CriterionError Criterion :=
  match Text.words text with
  | [key] => .ok ⟨String.ofList key, .ofInt 1, .ofInt 1⟩
  | [key, mark] =>
    if mark = ['!'] then .ok ⟨String.ofList key, .zero, .zero⟩
    else .error (.badMark (String.ofList mark) (String.ofList text))
  | [key, relation, bound] =>
    match Numeral.read? bound with
    | some number =>
      match ofRelation? (String.ofList key) relation number.toSingle with
      | some criterion => .ok criterion
      | none => .error (.badRelation (String.ofList relation) (String.ofList text))
    | none =>
      if relation = ['='] then
        .ok ⟨String.ofList key, (textValue bound).toDouble, (textValue bound).toDouble⟩
      else .error (.badTextRelation (String.ofList relation) (String.ofList text))
  | terms => .error (.badLength (String.ofList text) terms.length)

/-- Reads a criterion from a value, which has to be a text. -/
def ofValue : Value → Except CriterionError Criterion
  | .str text => ofText text.toList
  | value => .error (.notText value)

end Criterion

namespace Criteria

/-- Whether a value is a text with a double bar. -/
def isGroup : Value → Bool
  | .str text => decide (1 < (Text.alternatives text.toList).length)
  | _ => false

/-- Reads the alternatives of a value: of a group its pieces, otherwise the value alone. -/
def alternativesOf (value : Value) : Except CriterionError (List Criterion) :=
  match value with
  | .str text => (Text.alternatives text.toList).mapM Criterion.ofText
  | value => (Criterion.ofValue value).map ([·])

/-- Every way to choose one member of each list, the choice from the first list varying slowest. -/
def choices {α : Type} : List (List α) → List (List α)
  | [] => [[]]
  | group :: others => group.flatMap fun chosen => (choices others).map (chosen :: ·)

/-- One `Criteria` for each choice from the groups: the chosen alternatives in the order of the
groups, then the criterions that stand alone. -/
def expand (concept : Concept) (facts : List Value) : Except CriterionError (List Criteria) := do
  let read ← facts.mapM fun fact => (alternativesOf fact).map (isGroup fact, ·)
  let groups := (read.filter (·.1)).map (·.2)
  let required := (read.filter (!·.1)).flatMap (·.2)
  return (choices groups).map fun chosen => ⟨concept, chosen ++ required⟩

/-- Reads criteria from a list of texts without groups. -/
def ofValue (concept : Concept) : Value → Except CriterionError Criteria
  | .list facts =>
    match facts.find? isGroup with
    | some group => .error (.groupNotAllowed group.text)
    | none => (facts.mapM Criterion.ofValue).map (⟨concept, ·⟩)
  | value => .error (.notList value)

end Criteria

end FactRules
