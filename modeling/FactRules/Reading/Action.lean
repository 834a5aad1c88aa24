import FactRules.Numeral
import FactRules.Rule.RuleSet
import FactRules.Text.Pieces
import FactRules.Value

/-!
# Actions as texts

An action is written `RandomText` with its choices separated by commas, or `AddGlobalFact KEY` or
`AddEntityFact KEY` with an optional number of seconds after which the fact expires. A fact is
written with the value one.
-/

namespace FactRules

/-- Why a value is no action. -/
inductive ActionError where
  | notText (value : Value)
  | empty
  | noChoices (text : String)
  | badShape (name text : String)
  | badTtl (ttl text : String)
  | unknown (name text : String)

/-- The wording of each error. -/
def ActionError.message : ActionError → String
  | notText value => value.shownAfter "action must be a string, got "
  | empty => "empty action"
  | noChoices text => "action \"" ++ text ++ "\" has no text choices"
  | badShape name text => "action \"" ++ text ++ "\" must be \"" ++ name ++ " KEY [TTL_SECONDS]\""
  | badTtl ttl text => "bad ttl \"" ++ ttl ++ "\" in action \"" ++ text ++ "\""
  | unknown name text => "unknown action \"" ++ name ++ "\" in \"" ++ text ++ "\""

namespace Action

/-- The names that actions are written with. -/
def randomTextName : List Char := "RandomText".toList

@[inherit_doc randomTextName]
def scopeName : Scope → List Char
  | .everyone => "AddGlobalFact".toList
  | .agent => "AddEntityFact".toList

/-- The choices in a text: its pieces between commas, trimmed, blank ones left out. -/
def choicesOf (text : List Char) : List (List Char) :=
  ((Text.pieces ',' text).map Text.trim).filter (!·.isEmpty)

/-- Reads the key and the time to live of a fact from the words after the action's name. -/
def factOf (scope : Scope) (text : List Char) :
    List (List Char) → Except ActionError Action
  | [key] => .ok (.addFact scope (String.ofList key) (.ofInt 1) none)
  | [key, ttl] =>
    match Numeral.read? ttl with
    | some seconds =>
      if Binary.zero.le seconds then
        .ok (.addFact scope (String.ofList key) (.ofInt 1) (some seconds))
      else .error (.badTtl (String.ofList ttl) (String.ofList text))
    | none => .error (.badTtl (String.ofList ttl) (String.ofList text))
  | _ => .error (.badShape (String.ofList (scopeName scope)) (String.ofList text))

/-- Reads an action. -/
def ofText (text : List Char) : Except ActionError Action :=
  match Text.words text with
  | [] => .error .empty
  | name :: terms =>
    if name = randomTextName then
      match choicesOf (Text.afterFirstWord text) with
      | [] => .error (.noChoices (String.ofList text))
      | choices => .ok (.randomText (choices.map String.ofList))
    else if name = scopeName .everyone then factOf .everyone text terms
    else if name = scopeName .agent then factOf .agent text terms
    else .error (.unknown (String.ofList name) (String.ofList text))

/-- Reads an action from a value, which has to be a text. -/
def ofValue : Value → Except ActionError Action
  | .str text => ofText text.toList
  | value => .error (.notText value)

end Action

/-- Reads actions from a list of values. -/
def ActionSet.ofValues (actions : List Value) : Except ActionError ActionSet :=
  actions.mapM Action.ofValue

end FactRules
