import FactRules.Binary.Basic

/-!
# The order of binary numbers

Numbers are ordered by their signed ranks: all of them lie between the infinities
(`Binary.infinity_le`, `Binary.le_infinity`), and of two numbers one is at most the other
(`Binary.le_total`). Numbers that are at most each other are equal (`Binary.same_eq`), and nothing
that holds of the order holds of `nan` (`Binary.isNan_of_le`). Of two bit patterns that are numbers
only those of the zeros are different and equal as numbers (`Binary.same_ofBits`).
-/

namespace FactRules

/-- The value of the sign bit of a pattern; the bits below it are the rank. -/
def Format.signBit (f : Format) : Nat := Nat.pow 2 (f.exponentBits + f.fractionBits)

namespace Binary

variable {f : Format} {x y : Binary f}

/-- What compares is a number on both sides. -/
theorem isNan_of_le (h : x.le y = true) : x.isNan = false ∧ y.isNan = false := by
  obtain ⟨a, b, ha, hb, _⟩ := le_iff.1 h
  exact ⟨isNan_eq_false_iff.2 ⟨a, ha⟩, isNan_eq_false_iff.2 ⟨b, hb⟩⟩

/-- An undefined number compares with nothing. -/
theorem le_eq_false_of_isNan (h : x.isNan = true ∨ y.isNan = true) : x.le y = false := by
  refine Bool.eq_false_iff.2 fun hle => ?_
  obtain ⟨hx, hy⟩ := isNan_of_le hle
  rcases h with h | h
  · exact Bool.false_ne_true (hx.symm.trans h)
  · exact Bool.false_ne_true (hy.symm.trans h)

/-- Two numbers compare at least one way. -/
theorem le_total (hx : x.isNan = false) (hy : y.isNan = false) :
    x.le y = true ∨ y.le x = true := by
  obtain ⟨a, ha⟩ := isNan_eq_false_iff.1 hx
  obtain ⟨b, hb⟩ := isNan_eq_false_iff.1 hy
  exact (Int.le_total a b).imp (fun h => le_iff.2 ⟨a, b, ha, hb, h⟩)
    fun h => le_iff.2 ⟨b, a, hb, ha, h⟩

/-- A number is at most another one exactly if the other one is not less. -/
theorem le_iff_lt_eq_false (hx : x.isNan = false) :
    x.le y = true ↔ y.isNan = false ∧ y.lt x = false := by
  constructor
  · intro hle
    exact ⟨(isNan_of_le hle).2, lt_eq_false_of_le hle⟩
  · rintro ⟨hy, hlt⟩
    obtain ⟨a, ha⟩ := isNan_eq_false_iff.1 hx
    obtain ⟨b, hb⟩ := isNan_eq_false_iff.1 hy
    refine le_iff.2 ⟨a, b, ha, hb, Int.not_lt.1 fun hba => ?_⟩
    rw [lt_iff.2 ⟨b, a, hb, ha, hba⟩] at hlt
    cases hlt

/-- Numbers are equal if each is at most the other. -/
theorem same_eq (x y : Binary f) : x.same y = (x.le y && y.le x) := by
  rw [Bool.eq_iff_iff, Bool.and_eq_true, same_iff, le_iff, le_iff]
  constructor
  · rintro ⟨a, ha, hb⟩
    exact ⟨⟨a, a, ha, hb, Int.le_refl a⟩, ⟨a, a, hb, ha, Int.le_refl a⟩⟩
  · rintro ⟨⟨a, b, ha, hb, hab⟩, ⟨c, d, hc, hd, hcd⟩⟩
    cases hb.symm.trans hc
    cases ha.symm.trans hd
    exact ⟨a, ha, Int.le_antisymm hab hcd ▸ hb⟩

theorem same_eq_false_of_isNan (h : x.isNan = true ∨ y.isNan = true) : x.same y = false := by
  rw [same_eq, le_eq_false_of_isNan h, Bool.false_and]

/-- A number is equal to itself; only the undefined one is not. -/
theorem same_self (h : x.isNan = false) : x.same x = true := by
  rw [same_eq, le_refl h]
  rfl

/-- Numbers of given ranks compare as the ranks with their signs. -/
theorem num_le_num_iff {negative other : Bool} {rank second : Nat} (h : rank ≤ f.infinityRank)
    (hsecond : second ≤ f.infinityRank) :
    (num negative rank h).le (num other second hsecond) = true ↔
      (if negative then -(rank : Int) else rank) ≤ if other then -(second : Int) else second :=
  decide_eq_true_iff

/-- A rank that the format has is not cut off at infinity. -/
theorem ofRank_of_le (negative : Bool) {rank : Nat} (h : rank ≤ f.infinityRank) :
    ofRank negative rank = num negative rank h := by
  simp only [ofRank, Nat.min_eq_left h]

/-- No number is less than negative infinity. -/
theorem infinity_le (h : x.isNan = false) : (infinity true).le x = true := by
  cases x with
  | nan => cases h
  | num negative rank hle =>
    rw [infinity, ofRank_of_le true (Nat.le_refl _), num_le_num_iff, if_pos rfl]
    split <;> omega

/-- No number is greater than positive infinity. -/
theorem le_infinity (h : x.isNan = false) : x.le (infinity false) = true := by
  cases x with
  | nan => cases h
  | num negative rank hle =>
    rw [infinity, ofRank_of_le false (Nat.le_refl _), num_le_num_iff, if_neg Bool.false_ne_true]
    split <;> omega

/-! ## Bit patterns -/

/-- A pattern is a sign and a rank. -/
theorem exists_pattern {bits : Nat} (h : bits < 2 * f.signBit) :
    ∃ (negative : Bool) (rank : Nat),
      rank < f.signBit ∧ bits = negative.toNat * f.signBit + rank := by
  rcases Nat.lt_or_ge bits f.signBit with hlow | hhigh
  · refine ⟨false, bits, hlow, ?_⟩
    rw [Bool.toNat_false, Nat.zero_mul, Nat.zero_add]
  · refine ⟨true, bits - f.signBit, by omega, ?_⟩
    rw [Bool.toNat_true, Nat.one_mul, Nat.add_sub_cancel' hhigh]

/-- The number of a sign and a rank. -/
theorem ofBits_pattern (negative : Bool) {rank : Nat} (h : rank < f.signBit) :
    (ofBits (negative.toNat * f.signBit + rank) : Binary f) =
      if hle : rank ≤ f.infinityRank then num negative rank hle else nan := by
  have hrank : (negative.toNat * f.signBit + rank) % f.signBit = rank := Nat.mul_add_mod_of_lt h
  have hsign : (negative.toNat * f.signBit + rank) / f.signBit = negative.toNat := by
    rw [Nat.mul_comm, Nat.mul_add_div (Nat.zero_lt_of_lt h), Nat.div_eq_of_lt h, Nat.add_zero]
  rw [ofBits, ← Format.signBit]
  simp only [hrank, hsign]
  cases negative <;> rfl

/-- Patterns are equal as numbers if they are one pattern, which is a number, or the two zeros. -/
theorem same_ofBits {a b : Nat} (ha : a < 2 * f.signBit) (hb : b < 2 * f.signBit) :
    (ofBits a : Binary f).same (ofBits b) = true ↔
      a = b ∧ b % f.signBit ≤ f.infinityRank ∨ a % f.signBit = 0 ∧ b % f.signBit = 0 := by
  obtain ⟨aNegative, aRank, haRank, rfl⟩ := exists_pattern ha
  obtain ⟨bNegative, bRank, hbRank, rfl⟩ := exists_pattern hb
  rw [ofBits_pattern aNegative haRank, ofBits_pattern bNegative hbRank,
    Nat.mul_add_mod_of_lt haRank, Nat.mul_add_mod_of_lt hbRank]
  by_cases haNumber : aRank ≤ f.infinityRank
  · by_cases hbNumber : bRank ≤ f.infinityRank
    · rw [dif_pos haNumber, dif_pos hbNumber]
      -- The numbers are equal if their signed ranks are.
      cases aNegative <;> cases bNegative <;> simp [same, ordinal?, hbNumber] <;> omega
    · rw [dif_neg hbNumber]
      rw [same_eq_false_of_isNan (.inr rfl)]
      exact iff_of_false Bool.false_ne_true (by omega)
  · rw [dif_neg haNumber]
    rw [same_eq_false_of_isNan (.inl rfl)]
    refine iff_of_false Bool.false_ne_true ?_
    cases aNegative <;> cases bNegative <;> simp <;> omega

end Binary

end FactRules
