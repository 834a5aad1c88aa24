import FactRules.Binary.Basic

/-!
# Rounding to the nearest number of a format

`Format.rankOf n d` is the rank of the magnitude nearest to `n / d` units, ties going to the even
rank. One rule covers subnormal and normal numbers and overflow: the quotient is cut to the
fraction's width by a power of two, rounded there, and a carry moves on to the next rank. On it
stand the change of format (`Binary.convert`) and exact addition rounded once (`Binary.add`).
-/

namespace FactRules

/-- The integer nearest to `n / d`, ties going to the even one. -/
def roundHalfEven (n d : Nat) : Nat :=
  let low := n / d
  let twice := 2 * (n % d)
  if twice < d then low
  else if twice = d then low + low % 2
  else low + 1

/-- The rank of the magnitude nearest to `n / d` units of the least positive number; from half a
step above the greatest finite magnitude on it is infinity's. -/
def Format.rankOf (f : Format) (n d : Nat) : Nat :=
  let shift := (n / d).log2 - f.fractionBits
  min (shift * Nat.pow 2 f.fractionBits + roundHalfEven n (d * Nat.pow 2 shift)) f.infinityRank

namespace Binary

variable {f g : Format}

/-- The number nearest to `n / d` units of the format. -/
def ofQuotient (negative : Bool) (n d : Nat) : Binary f := ofRank negative (f.rankOf n d)

/-- The number of format `g` nearest to a number of format `f`. -/
def convert : Binary f → Binary g
  | nan => nan
  | num negative rank _ =>
    if rank = f.infinityRank then infinity negative
    else
      ofQuotient negative (f.units rank * Nat.pow 2 (g.unitExponent - f.unitExponent))
        (Nat.pow 2 (f.unitExponent - g.unitExponent))

/-- The exact sum, rounded once. Opposite infinities have no sum; a sum of zero is positive unless
both terms are negative. -/
def add : Binary f → Binary f → Binary f
  | nan, _ | _, nan => nan
  | num s₁ r₁ h₁, num s₂ r₂ h₂ =>
    if r₁ = f.infinityRank then
      if r₂ = f.infinityRank ∧ s₁ ≠ s₂ then nan else num s₁ r₁ h₁
    else if r₂ = f.infinityRank then num s₂ r₂ h₂
    else
      let a : Int := if s₁ then -(f.units r₁ : Int) else f.units r₁
      let b : Int := if s₂ then -(f.units r₂ : Int) else f.units r₂
      let sum := a + b
      let negative := if sum = 0 then s₁ && s₂ else decide (sum < 0)
      ofQuotient negative sum.natAbs 1

/-- The number nearest to an integer. -/
def ofInt (n : Int) : Binary f :=
  ofQuotient (decide (n < 0)) (n.natAbs * Nat.pow 2 f.unitExponent) 1

end Binary

/-- The single nearest to a double: the value a fact keeps of what is written to it. -/
def Double.toSingle (x : Double) : Single := x.convert

/-- The double equal to a single. -/
def Single.toDouble (x : Single) : Double := x.convert

end FactRules
