/-!
# Binary floating-point numbers

A number of a binary format is a sign and a *rank*: its place among the format's magnitudes,
counted from zero, subnormal and normal numbers and infinity in one line. Magnitudes grow with
their ranks, so the order of numbers is the order of signed ranks (`Binary.ordinal?`), and the
number next to a number is the one whose rank is next.

Main definitions: `Format` with `Format.single` and `Format.double`, `Binary`, its magnitude in
units of the least positive number (`Format.units`), its comparisons (`Binary.le`, `Binary.lt`,
`Binary.same`) and its bits (`Binary.ofBits`, `Binary.toBits?`).

Definitions spell powers `Nat.pow`: what `^` stands for on the natural numbers depends on what is
imported.
-/

namespace FactRules

/-- The shape of a binary format: how many bits hold the fraction and how many the exponent. -/
structure Format where
  fractionBits : Nat
  exponentBits : Nat
deriving DecidableEq, Repr

namespace Format

/-- Four bytes: 23 fraction bits and 8 exponent bits. -/
def single : Format := ⟨23, 8⟩

/-- Eight bytes: 52 fraction bits and 11 exponent bits. -/
def double : Format := ⟨52, 11⟩

/-- The rank of infinity: all exponent bits set and no fraction bit. -/
def infinityRank (f : Format) : Nat := (Nat.pow 2 f.exponentBits - 1) * Nat.pow 2 f.fractionBits

/-- The exponent, as a power of two below one, of the least positive number: that number is
`2 ^ -f.unitExponent`. -/
def unitExponent (f : Format) : Nat := Nat.pow 2 (f.exponentBits - 1) + f.fractionBits - 2

/-- The magnitude of a rank in units of the least positive number. Below the first power of two
the units are the rank itself; each further binade doubles the step. -/
def units (f : Format) (rank : Nat) : Nat :=
  let binade := rank / Nat.pow 2 f.fractionBits
  let fraction := rank % Nat.pow 2 f.fractionBits
  if binade = 0 then fraction else (Nat.pow 2 f.fractionBits + fraction) * Nat.pow 2 (binade - 1)

end Format

/-- A number of a binary format: not a number, or a sign and a rank up to infinity's. The two
zeros differ in their sign; there is one `nan`. -/
inductive Binary (f : Format) where
  | nan
  | num (negative : Bool) (rank : Nat) (rank_le : rank ≤ f.infinityRank)
deriving DecidableEq

/-- A single-precision number, the precision facts are stored with. -/
abbrev Single := Binary Format.single

/-- A double-precision number, the precision of bounds, times and written values. -/
abbrev Double := Binary Format.double

namespace Binary

variable {f : Format}

/-- The number with this sign and rank; ranks beyond infinity's stand for infinity. -/
def ofRank (negative : Bool) (rank : Nat) : Binary f :=
  .num negative (min rank f.infinityRank) (Nat.min_le_right ..)

/-- Positive zero. -/
def zero : Binary f := ofRank false 0

/-- Infinity with the given sign. -/
def infinity (negative : Bool) : Binary f := ofRank negative f.infinityRank

instance : Inhabited (Binary f) := ⟨zero⟩

/-- The signed rank, by which numbers are ordered; both zeros have 0, and `nan` has none. -/
def ordinal? : Binary f → Option Int
  | nan => none
  | num negative rank _ => some (if negative then -rank else rank)

/-- `x ≤ y` as numbers; false where either is `nan`. -/
def le (x y : Binary f) : Bool :=
  match x.ordinal?, y.ordinal? with
  | some a, some b => decide (a ≤ b)
  | _, _ => false

/-- `x < y` as numbers; false where either is `nan`. -/
def lt (x y : Binary f) : Bool :=
  match x.ordinal?, y.ordinal? with
  | some a, some b => decide (a < b)
  | _, _ => false

/-- Equality as numbers: the zeros are equal, and `nan` equals nothing. -/
def same (x y : Binary f) : Bool :=
  match x.ordinal?, y.ordinal? with
  | some a, some b => decide (a = b)
  | _, _ => false

/-- The same number, zero without its sign. -/
def dropZeroSign : Binary f → Binary f
  | num _ 0 _ => zero
  | x => x

/-- Whether this is no number. -/
def isNan : Binary f → Bool
  | nan => true
  | num .. => false

/-- The number of a bit pattern: the top bit is the sign and the others are the rank; a rank
beyond infinity's is `nan`. -/
def ofBits (bits : Nat) : Binary f :=
  let signBit := Nat.pow 2 (f.exponentBits + f.fractionBits)
  let rank := bits % signBit
  if h : rank ≤ f.infinityRank then .num (decide (bits / signBit % 2 = 1)) rank h else .nan

/-- The bit pattern of a number; `nan` stands for many patterns and has none of its own. -/
def toBits? : Binary f → Option Nat
  | nan => none
  | num negative rank _ =>
    some (if negative then Nat.pow 2 (f.exponentBits + f.fractionBits) + rank else rank)

/-! ## Comparisons through signed ranks -/

/-- Zero keeps its place in the order without its sign, so all comparisons stay as they are. -/
theorem ordinal?_dropZeroSign (x : Binary f) : x.dropZeroSign.ordinal? = x.ordinal? := by
  rcases x with _ | ⟨negative, _ | rank, hle⟩
  · rfl
  · cases negative <;> rfl
  · rfl

/-- A comparison holds of numbers alone, and compares their places in the order. -/
theorem le_iff {x y : Binary f} :
    x.le y = true ↔ ∃ a b, x.ordinal? = some a ∧ y.ordinal? = some b ∧ a ≤ b := by
  unfold le; split <;> simp_all

/-- So does the strict one. -/
theorem lt_iff {x y : Binary f} :
    x.lt y = true ↔ ∃ a b, x.ordinal? = some a ∧ y.ordinal? = some b ∧ a < b := by
  unfold lt; split <;> simp_all

/-- And so do equal ones: the two zeros have one place. -/
theorem same_iff {x y : Binary f} :
    x.same y = true ↔ ∃ a, x.ordinal? = some a ∧ y.ordinal? = some a := by
  unfold same
  split
  · next a b ha hb => simp [ha, hb, Eq.comm]
  · next h => simpa using fun a ha hb => h a a ha hb

/-- A number is not `nan` exactly if it has a place in the order. -/
theorem isNan_eq_false_iff {x : Binary f} : x.isNan = false ↔ ∃ a, x.ordinal? = some a := by
  cases x <;> simp [isNan, ordinal?]

/-- Only `nan` fails to be at most itself. -/
theorem le_refl {x : Binary f} (h : x.isNan = false) : x.le x = true := by
  obtain ⟨a, ha⟩ := isNan_eq_false_iff.1 h
  exact le_iff.2 ⟨a, a, ha, ha, Int.le_refl a⟩

/-- Numbers in between can be left out. -/
theorem le_trans {x y z : Binary f} (hxy : x.le y = true) (hyz : y.le z = true) :
    x.le z = true := by
  obtain ⟨a, b, ha, hb, hab⟩ := le_iff.1 hxy
  obtain ⟨b', c, hb', hc, hbc⟩ := le_iff.1 hyz
  cases hb.symm.trans hb'
  exact le_iff.2 ⟨a, c, ha, hc, Int.le_trans hab hbc⟩

/-- Of two numbers that compare one way, none is strictly less the other way. -/
theorem lt_eq_false_of_le {x y : Binary f} (h : x.le y = true) : y.lt x = false := by
  obtain ⟨a, b, ha, hb, hab⟩ := le_iff.1 h
  refine Bool.eq_false_iff.2 fun hlt => ?_
  obtain ⟨b', a', hb', ha', hba⟩ := lt_iff.1 hlt
  cases hb.symm.trans hb'
  cases ha.symm.trans ha'
  exact absurd hba (Int.not_lt.2 hab)

end Binary

end FactRules
