import FactRules.Binary.Rounding

/-!
# The binary number nearest to a decimal

`Binary.ofDecimal` rounds `digits · 10 ^ exponent` once, to the nearest number of a format. Decimals
that lie beyond every finite number, or below half the least positive one, are recognised by the
place of their leading digit, so the work is bounded by the format and the length of the digits,
whatever the exponent says.
-/

namespace FactRules

/-- How many decimal digits a number has; zero has none. -/
def decimalLength (n : Nat) : Nat :=
  if n = 0 then 0 else decimalLength (n / 10) + 1

namespace Binary

/-- The number nearest to `digits · 10 ^ exponent`, with the given sign. -/
def ofDecimal {f : Format} (negative : Bool) (digits : Nat) (exponent : Int) : Binary f :=
  let top : Int := decimalLength digits + exponent
  if digits = 0 then ofRank negative 0
  else if (Nat.pow 2 (f.exponentBits - 1) : Nat) < top then infinity negative
  else if top < -(f.unitExponent + 1 : Int) then ofRank negative 0
  else
    ofQuotient negative (digits * Nat.pow 10 exponent.toNat * Nat.pow 2 f.unitExponent)
      (Nat.pow 10 (-exponent).toNat)

end Binary

end FactRules
