import FactRules.Decimal.Reading

/-!
# The shortest decimal that reads back

`Double.shortest` gives a double's magnitude as a decimal with the fewest digits that round to it;
of several such decimals the nearest to the magnitude is taken, and of two equally near the one
whose last digit is even. `Double.text` writes a double with those digits.

The search tries one digit, two digits, and so on. For each count the two decimals of that length
next to the magnitude are the only candidates, and all comparisons are exact.
-/

namespace FactRules

/-- A positive decimal: `digits · 10 ^ exponent`. -/
structure Decimal where
  digits : Nat
  exponent : Int
deriving DecidableEq, Repr

namespace Decimal

/-- A magnitude `n / d` on the grid of the multiples of `10 ^ exponent`: the greatest multiple that
is not above it, as a number of steps, and what is left, as a numerator over a denominator. -/
structure GridPoint where
  steps : Nat
  rest : Nat
  denominator : Nat

/-- The place of the magnitude `n / d` on the grid of the multiples of `10 ^ exponent`. -/
def GridPoint.ofQuotient (n d : Nat) (exponent : Int) : GridPoint :=
  let numerator := n * Nat.pow 10 (-exponent).toNat
  let denominator := d * Nat.pow 10 exponent.toNat
  ⟨numerator / denominator, numerator % denominator, denominator⟩

/-- Of the two multiples of `10 ^ exponent` next to the magnitude `n / d` of a rank, the one that
reads back as the rank, if any: the nearer of two, and on a tie the even one. -/
def onGrid? (rank n d : Nat) (exponent : Int) : Option Decimal :=
  let point := GridPoint.ofQuotient n d exponent
  let readsBack (digits : Nat) : Bool :=
    (Binary.ofDecimal false digits exponent : Double) = Binary.ofRank false rank
  let lowFits := readsBack point.steps
  let highFits := point.rest ≠ 0 && readsBack (point.steps + 1)
  let highNearer :=
    decide (point.denominator < 2 * point.rest) ||
      (decide (point.denominator = 2 * point.rest) && point.steps % 2 = 1)
  if lowFits && !(highFits && highNearer) then some ⟨point.steps, exponent⟩
  else if highFits then some ⟨point.steps + 1, exponent⟩
  else none

/-- The decimal on the first grid that has one, from the grid of the multiples of `10 ^ exponent`
through as many finer grids as `finer` says. -/
def firstOnGrid (rank n d : Nat) (exponent : Int) : Nat → Decimal
  | 0 => (onGrid? rank n d exponent).getD ⟨0, exponent⟩
  | finer + 1 =>
    match onGrid? rank n d exponent with
    | some decimal => decimal
    | none => firstOnGrid rank n d (exponent - 1) finer

/-- The exponent of ten of the leading digit of `n / d`: the difference of the lengths of `n` and
`d`, or one less. -/
def leadingExponent (n d : Nat) : Int :=
  let estimate : Int := (decimalLength n : Int) - decimalLength d
  if (GridPoint.ofQuotient n d estimate).steps = 0 then estimate - 1 else estimate

end Decimal

namespace Double

/-- The shortest decimal that rounds to a positive finite magnitude. Seventeen digits always
suffice. -/
def shortest (rank : Nat) : Decimal :=
  let n := Format.double.units rank
  let d := Nat.pow 2 Format.double.unitExponent
  Decimal.firstOnGrid rank n d (Decimal.leadingExponent n d) 17

/-! ## Writing -/

/-- How a double is laid out: the exponents of the leading digit that are written positionally, how
many digits an exponent has at least, and the texts without digits. -/
structure Layout where
  leastPositional : Int
  beyondPositional : Int
  exponentDigits : Nat
  infinityText : String
  nanText : String

/-- Facts and bounds are written positionally from `0.0001` up to below `10 ^ 16`, always with a
fraction; beyond that with a signed exponent of two digits or more. -/
def Layout.facts : Layout := ⟨-4, 16, 2, "inf", "nan"⟩

/-- Digits without the zeros at their end. -/
def withoutEndZeros (digits : List Char) : List Char :=
  (digits.reverse.dropWhile (· = '0')).reverse

/-- A positive decimal written in the layout, without zeros at the end of its digits. -/
def Layout.write (layout : Layout) (decimal : Decimal) : String :=
  let all := Nat.toDigits 10 decimal.digits
  let leading : Int := all.length - 1 + decimal.exponent
  let digits := withoutEndZeros all
  if layout.leastPositional ≤ leading ∧ leading < layout.beyondPositional then
    if leading < 0 then
      String.ofList ('0' :: '.' :: List.replicate (-leading - 1).toNat '0' ++ digits)
    else
      let whole := digits.take (leading.toNat + 1)
      let fraction := digits.drop (leading.toNat + 1)
      String.ofList
        (whole ++ List.replicate (leading.toNat + 1 - whole.length) '0' ++ '.' ::
          if fraction.isEmpty then ['0'] else fraction)
  else
    let fraction := digits.drop 1
    let exponent := Nat.toDigits 10 leading.natAbs
    String.ofList
      (digits.take 1 ++ (if fraction.isEmpty then [] else '.' :: fraction) ++
        'e' :: (if leading < 0 then '-' else '+') ::
        List.replicate (layout.exponentDigits - exponent.length) '0' ++ exponent)

/-- The text of a double, zeros and infinities with their sign. -/
def write (layout : Layout) : Double → String
  | .nan => layout.nanText
  | .num negative rank _ =>
    let sign := if negative then "-" else ""
    if rank = 0 then sign ++ "0.0"
    else if rank = Format.double.infinityRank then sign ++ layout.infinityText
    else sign ++ layout.write (shortest rank)

/-- The text of a double wherever facts, bounds and times are shown. -/
def text (x : Double) : String := x.write .facts

end Double

end FactRules
