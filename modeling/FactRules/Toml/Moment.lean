import FactRules.Numeral
import FactRules.Toml.Input
import FactRules.Value

/-!
# Dates and times in TOML

A date is written `YYYY-MM-DD` and a time of day `hh:mm:ss`, perhaps with a fraction of a second. A
date may be followed by a time, after a `T` or one space, and the time by the offset of its clock:
`Z`, or `+hh:mm` or `-hh:mm`. `moment` reads the longest of these that stands ahead, so a date
with something else behind it is a date alone.
-/

namespace FactRules.Toml

/-- Reads a number of exactly `count` digits. -/
def fixedDigits (count : Nat) (input : Input) : Option (Nat × Input) :=
  let digits := input.take count
  if digits.length = count && digits.all Char.isDigit then
    some (Numeral.digitsValue digits, input.drop count)
  else none

/-- Reads over one character. -/
def skipMark (mark : Char) : Input → Option Input
  | c :: rest => if c = mark then some rest else none
  | [] => none

/-- Reads a date. -/
def date (input : Input) : Option (Date × Input) := do
  let (year, rest) ← fixedDigits 4 input
  let (month, rest) ← fixedDigits 2 (← skipMark '-' rest)
  let (day, rest) ← fixedDigits 2 (← skipMark '-' rest)
  return (← Date.of? year month day, rest)

/-- Reads a fraction of a second, if there is one, as microseconds; what is less than a microsecond
is dropped. -/
def fraction : Input → Nat × Input
  | '.' :: rest =>
    match rest.takeWhile Char.isDigit with
    | [] => (0, '.' :: rest)
    | digits =>
      (Numeral.digitsValue ((digits ++ List.replicate 6 '0').take 6), rest.dropWhile Char.isDigit)
  | input => (0, input)

/-- Reads a time of day. -/
def timeOfDay (input : Input) : Option (TimeOfDay × Input) := do
  let (hour, rest) ← fixedDigits 2 input
  let (minute, rest) ← fixedDigits 2 (← skipMark ':' rest)
  let (second, rest) ← fixedDigits 2 (← skipMark ':' rest)
  let (microsecond, rest) := fraction rest
  return (← TimeOfDay.of? hour minute second microsecond, rest)

/-- Reads hours and minutes as a number of minutes. -/
def clockMinutes (input : Input) : Option (Nat × Input) := do
  let (hour, rest) ← fixedDigits 2 input
  let (minute, rest) ← fixedDigits 2 (← skipMark ':' rest)
  if hour < 24 ∧ minute < 60 then some (60 * hour + minute, rest) else none

/-- Reads the offset of a clock. -/
def offset : Input → Option (UtcOffset × Input)
  | 'Z' :: rest | 'z' :: rest => some (.zero, rest)
  | '+' :: rest => do
    let (minutes, rest) ← clockMinutes rest
    return (← UtcOffset.of? minutes, rest)
  | '-' :: rest => do
    let (minutes, rest) ← clockMinutes rest
    return (← UtcOffset.of? (-(minutes : Int)), rest)
  | _ => none

/-- Reads what may follow a date: a time of day and perhaps an offset. -/
def timeAfterDate : Input → Option ((TimeOfDay × Option UtcOffset) × Input)
  | mark :: rest =>
    if mark = 'T' || mark = 't' || mark = ' ' then do
      let (time, rest) ← timeOfDay rest
      match offset rest with
      | some (offset, rest) => return ((time, some offset), rest)
      | none => return ((time, none), rest)
    else none
  | [] => none

/-- Reads a date, a time of day or both. -/
def moment (input : Input) : Option (Value × Input) :=
  match date input with
  | some (date, rest) =>
    match timeAfterDate rest with
    | some ((time, offset), rest) => some (.dateTime ⟨date, time, offset⟩, rest)
    | none => some (.date date, rest)
  | none => (timeOfDay input).map fun (time, rest) => (.time time, rest)

end FactRules.Toml
