import FactRules.Decimal.Reading
import FactRules.Text.Blank
import FactRules.Text.Digit

/-!
# Numerals

`Numeral.read?` reads a text as a double. Accepted are decimal numerals with an optional sign,
fraction and exponent, and the words `inf`, `infinity` and `nan` in any case. Digits of every
script count as digits, an underscore may stand between two digits, and spaces around the numeral
are ignored.
-/

namespace FactRules.Numeral

/-- The spaces that may surround a numeral; the information separators are not among them. -/
def isSpace (c : Char) : Bool := c = ' ' || decide (0x09 ≤ c.toNat ∧ c.toNat ≤ 0x0d)

/-- A character in the alphabet of numerals: ASCII stays, other blanks become spaces and other
decimal digits become ASCII digits. -/
def plain? (c : Char) : Option Char :=
  if c.toNat < 0x80 then some c
  else if Text.isBlank c then some ' '
  else (Text.digitValue? c).map fun value => Char.ofNat ('0'.toNat + value)

/-- Drops the underscores if each stands between two digits. -/
def joinDigits? (afterDigit : Bool) : List Char → Option (List Char)
  | [] => some []
  | '_' :: next :: rest =>
    if afterDigit && next.isDigit then (joinDigits? true rest).map (next :: ·) else none
  | ['_'] => none
  | c :: rest => (joinDigits? c.isDigit rest).map (c :: ·)

/-- Splits a sign off; `true` stands for minus. -/
def takeSign : List Char → Bool × List Char
  | '-' :: rest => (true, rest)
  | '+' :: rest => (false, rest)
  | text => (false, text)

/-- The value of a run of ASCII digits. -/
def digitsValue (digits : List Char) : Nat :=
  digits.foldl (fun n c => 10 * n + (c.toNat - '0'.toNat)) 0

/-- The exponent part of a numeral: nothing, or `e` with an optional sign and digits. -/
def exponent? : List Char → Option Int
  | [] => some 0
  | mark :: rest =>
    let (negative, digits) := takeSign rest
    if (mark = 'e' || mark = 'E') && !digits.isEmpty && digits.all Char.isDigit then
      some (if negative then -(digitsValue digits : Int) else digitsValue digits)
    else none

/-- A numeral without sign as digits and an exponent of ten. -/
def decimal? (text : List Char) : Option (Nat × Int) :=
  let whole := text.takeWhile Char.isDigit
  let rest := text.dropWhile Char.isDigit
  let (fraction, tail) :=
    match rest with
    | '.' :: more => (more.takeWhile Char.isDigit, more.dropWhile Char.isDigit)
    | _ => ([], rest)
  if whole.isEmpty && fraction.isEmpty then none
  else (exponent? tail).map fun e => (digitsValue (whole ++ fraction), e - fraction.length)

/-- The double a text stands for, if it is a numeral. -/
def read? (text : List Char) : Option Double := do
  let plain ← text.mapM plain?
  let trimmed := ((plain.dropWhile isSpace).reverse.dropWhile isSpace).reverse
  let (negative, body) := takeSign (← joinDigits? false trimmed)
  let word := String.ofList (body.map Char.toLower)
  if word = "inf" || word = "infinity" then some (.infinity negative)
  else if word = "nan" then some .nan
  else (decimal? body).map fun (digits, exponent) => .ofDecimal negative digits exponent

end FactRules.Numeral
