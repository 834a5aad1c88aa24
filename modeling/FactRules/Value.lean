import FactRules.Calendar
import FactRules.Decimal.Shortest
import FactRules.Text.Quoted

/-!
# Values of documents and settings

A `Value` is what a document or a settings table holds: nothing, a truth value, a whole number, a
double, a text, a date, a time of day, both in one, a list, or a table whose keys keep their order.
`Value.display` shows a value with texts quoted, `Value.text` shows a text as itself, and
`Value.kind` names its kind. A message shows a value only if the value has no number of very many
digits (`Value.shownAfter`).
-/

namespace FactRules

/-- A value of a document or of the settings. -/
inductive Value where
  | null
  | bool (value : Bool)
  | int (value : Int)
  | float (value : Double)
  | str (text : String)
  | date (day : Date)
  | time (clock : TimeOfDay)
  | dateTime (moment : DateTime)
  | list (items : List Value)
  | table (entries : List (String × Value))
deriving Inhabited

namespace Value

mutual

/-- The value as it is shown inside a message, texts between quotes. -/
def display : Value → String
  | null => "None"
  | bool true => "True"
  | bool false => "False"
  | int n => toString n
  | float x => x.text
  | str text => String.ofList (Text.quoted text.toList)
  | date day => day.display
  | time clock => clock.display
  | dateTime moment => moment.display
  | list items => "[" ++ ", ".intercalate (displayItems items) ++ "]"
  | table entries => "\x7b" ++ ", ".intercalate (displayEntries entries) ++ "\x7d"

/-- The items of a list, each shown. -/
def displayItems : List Value → List String
  | [] => []
  | item :: rest => item.display :: displayItems rest

/-- The entries of a table, each shown as key and value. -/
def displayEntries : List (String × Value) → List String
  | [] => []
  | (key, value) :: rest =>
    (String.ofList (Text.quoted key.toList) ++ ": " ++ value.display) :: displayEntries rest

end

/-! ## Values in messages -/

/-- The most decimal digits with which a whole number is read or shown. Both take long for longer
numbers; notations by a power of two, which do not, are read without a limit. -/
def maxDigits : Nat := 4300

mutual

/-- Whether every whole number in a value has at most `maxDigits` digits. -/
def isShowable : Value → Bool
  | int n => n.natAbs < Nat.pow 10 maxDigits
  | list items => areShowable items
  | table entries => haveShowable entries
  | _ => true

@[inherit_doc isShowable]
def areShowable : List Value → Bool
  | [] => true
  | item :: rest => item.isShowable && areShowable rest

@[inherit_doc isShowable]
def haveShowable : List (String × Value) → Bool
  | [] => true
  | (_, value) :: rest => value.isShowable && haveShowable rest

end

/-- A message of some words and a value, or one that says that the value has too long a number. -/
def shownAfter (words : String) (value : Value) : String :=
  if value.isShowable then words ++ value.display
  else "Exceeds the limit (" ++ toString maxDigits ++ " digits) for integer string conversion; " ++
    "use sys.set_int_max_str_digits() to increase the limit"

/-! ## Texts and kinds -/

/-- The value as a text: a text is itself, anything else is shown. -/
def text : Value → String
  | str text => text
  | value => value.display

/-- The name of a value's kind. Two values are of one kind exactly if these names are equal. -/
def kind : Value → String
  | null => "NoneType"
  | bool _ => "bool"
  | int _ => "int"
  | float _ => "float"
  | str _ => "str"
  | date _ => "date"
  | time _ => "time"
  | dateTime _ => "datetime"
  | list _ => "list"
  | table _ => "dict"

end Value

end FactRules
