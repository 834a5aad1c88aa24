import FactRules.Proofs.Fact.TextValue

/-!
# Equality of texts is equality of hashes

A text is kept as the single that has its hash as bits, and a criterion asks for a text by the
double of that single. On this way nothing is lost but what the order of numbers does not see: a
hash that is no number is found nowhere, not even by its own text, and the two zeros are one.
`Criterion.asks_for_hash` says this of every key and every literal.
-/

namespace FactRules

/-- Texts with the same UTF-8 bytes are the same. -/
theorem utf8_injective : Function.Injective utf8 := fun _ _ h =>
  String.ofList_injective (String.toByteArray_inj.1 (congrArg List.toByteArray h))

namespace Hash

/-- The hash that a text is kept as. -/
def ofText (text : List Char) : UInt32 := ofBytes (utf8 (foldedText text))

/-- Whether a hash is no number as a single: all bits of the exponent are set, and some bit of the
fraction. -/
def IsNan (hash : UInt32) : Prop := hash >>> 23 &&& 0xff = 0xff ∧ hash &&& 0x7fffff ≠ 0

/-- Whether a hash is a zero as a single: no bit is set but the sign's. -/
def IsZero (hash : UInt32) : Prop := hash = 0 ∨ hash = 0x80000000

instance (hash : UInt32) : Decidable (IsNan hash) := inferInstanceAs (Decidable (_ ∧ _))

instance (hash : UInt32) : Decidable (IsZero hash) := inferInstanceAs (Decidable (_ ∨ _))

theorem toNat_lt_signBit (hash : UInt32) : hash.toNat < 2 * Format.single.signBit := hash.toNat_lt

/-- A hash read as a single is undefined if its bits without the sign are above those of
infinity. -/
theorem isNan_iff (hash : UInt32) :
    IsNan hash ↔ Format.single.infinityRank < hash.toNat % Format.single.signBit := by
  have hexponent : (hash >>> 23 &&& 0xff).toNat = hash.toNat / 8388608 % 256 := by
    rw [UInt32.toNat_and, UInt32.toNat_shiftRight]
    exact (Nat.and_two_pow_sub_one_eq_mod _ 8).trans (by rw [Nat.shiftRight_eq_div_pow]; rfl)
  have hfraction : (hash &&& 0x7fffff).toNat = hash.toNat % 8388608 := by
    rw [UInt32.toNat_and]
    exact Nat.and_two_pow_sub_one_eq_mod _ 23
  have hrank : Format.single.infinityRank = 2139095040 := by decide +kernel
  have hsign : Format.single.signBit = 2147483648 := by decide +kernel
  rw [IsNan, Ne, ← UInt32.toNat_inj, ← UInt32.toNat_inj, hexponent, hfraction, hrank, hsign]
  simp only [UInt32.reduceToNat]
  omega

/-- It is one of the two zeros if it has no bits but the sign. -/
theorem isZero_iff (hash : UInt32) : IsZero hash ↔ hash.toNat % Format.single.signBit = 0 := by
  have hlt := hash.toNat_lt
  have hsign : Format.single.signBit = 2147483648 := by decide +kernel
  rw [IsZero, ← UInt32.toNat_inj, ← UInt32.toNat_inj, hsign]
  simp only [UInt32.reduceToNat]
  omega

/-- Zeros are numbers. -/
theorem not_isNan_of_isZero {hash : UInt32} (h : IsZero hash) : ¬ IsNan hash := by
  rw [isNan_iff, (isZero_iff hash).1 h]
  exact Nat.not_lt_zero _

end Hash

/-- Values of texts are equal as numbers if the hashes are the same and a number, or both zeros. -/
theorem same_textValue (text other : List Char) :
    (textValue text).same (textValue other) = true ↔
      Hash.ofText text = Hash.ofText other ∧ ¬ Hash.IsNan (Hash.ofText other) ∨
        Hash.IsZero (Hash.ofText text) ∧ Hash.IsZero (Hash.ofText other) := by
  rw [textValue, textValue, ← Hash.ofText, ← Hash.ofText,
    Binary.same_ofBits (Hash.toNat_lt_signBit _) (Hash.toNat_lt_signBit _), UInt32.toNat_inj,
    Hash.isNan_iff, Nat.not_lt, Hash.isZero_iff, Hash.isZero_iff]

/-- A criterion that asks for a text asks for its hash: it accepts a fact that was written from a
text exactly if both hashes are the same and a number, or both are zeros. So it accepts the fact
written from its own text unless the hash is no number, and a text that is not folded to the same
has other bytes and the same hash, or the other zero. -/
theorem Criterion.asks_for_hash {key literal : List Char} (hkey : key ≠ [])
    (hkeyToken : ∀ c ∈ key, Text.isBlank c = false) (hliteral : literal ≠ [])
    (hliteralToken : ∀ c ∈ literal, Text.isBlank c = false)
    (hnumber : Numeral.read? literal = none) :
    ∃ criterion, ofText (key ++ [' ', '=', ' '] ++ literal) = .ok criterion ∧
      (∀ (text : List Char) (store : FactStore) (chain : Chain),
        criterion.holds (store.addText (String.ofList key) text :: chain) = true ↔
          Hash.ofText text = Hash.ofText literal ∧ ¬ Hash.IsNan (Hash.ofText literal) ∨
            Hash.IsZero (Hash.ofText text) ∧ Hash.IsZero (Hash.ofText literal)) ∧
      (∀ (store : FactStore) (chain : Chain),
        criterion.holds (store.addText (String.ofList key) literal :: chain) = true ↔
          ¬ Hash.IsNan (Hash.ofText literal)) ∧
      ∀ (text : List Char) (store : FactStore) (chain : Chain),
        criterion.holds (store.addText (String.ofList key) text :: chain) = true →
          foldedText text = foldedText literal ∨
            utf8 (foldedText text) ≠ utf8 (foldedText literal) ∧
              (Hash.ofText text = Hash.ofText literal ∨
                Hash.IsZero (Hash.ofText text) ∧ Hash.IsZero (Hash.ofText literal)) := by
  refine ⟨_, ofText_equals hkey hkeyToken hliteral hliteralToken hnumber, ?_⟩
  have hholds (text : List Char) (store : FactStore) (chain : Chain) :
      (Criterion.mk (String.ofList key) (textValue literal).toDouble
        (textValue literal).toDouble).holds (store.addText (String.ofList key) text :: chain) =
        true ↔
        Hash.ofText text = Hash.ofText literal ∧ ¬ Hash.IsNan (Hash.ofText literal) ∨
          Hash.IsZero (Hash.ofText text) ∧ Hash.IsZero (Hash.ofText literal) := by
    have hfound : (store.addText (String.ofList key) text).lookup? (String.ofList key) =
        some (textValue text) := by
      rw [FactStore.lookup?_addText, if_pos rfl]
    rw [holds_front hfound, accepts_equal, same_textValue]
  refine ⟨hholds, fun store chain => ?_, fun text store chain haccepts => ?_⟩
  · rw [hholds]
    constructor
    · rintro (⟨-, hnan⟩ | ⟨-, hzero⟩)
      · exact hnan
      · exact Hash.not_isNan_of_isZero hzero
    · intro hnan
      exact .inl ⟨rfl, hnan⟩
  · by_cases hfolded : foldedText text = foldedText literal
    · exact .inl hfolded
    · refine .inr ⟨fun hbytes => hfolded (utf8_injective hbytes), ?_⟩
      exact ((hholds text store chain).1 haccepts).imp_left And.left

/-- These two texts have the same hash, so the criterion that asks for one accepts the other. -/
theorem happymole_accepts_happymoth :
    ("mood".toList ≠ [] ∧ (∀ c ∈ "mood".toList, Text.isBlank c = false) ∧
      "happymole".toList ≠ [] ∧ (∀ c ∈ "happymole".toList, Text.isBlank c = false) ∧
      Numeral.read? "happymole".toList = none) ∧
      foldedText "Happy Moth".toList ≠ foldedText "happymole".toList ∧
      ∃ criterion, Criterion.ofText "mood = happymole".toList = .ok criterion ∧
        criterion.holds [FactStore.addText ∅ "mood" "Happy Moth".toList] = true := by
  have hkeyToken : ∀ c ∈ "mood".toList, Text.isBlank c = false :=
    Text.no_blank_of_any (by decide +kernel)
  have hliteralToken : ∀ c ∈ "happymole".toList, Text.isBlank c = false :=
    Text.no_blank_of_any (by decide +kernel)
  have hnumber : Numeral.read? "happymole".toList = none := by decide +kernel
  refine ⟨⟨by decide, hkeyToken, by decide, hliteralToken, hnumber⟩, by decide +kernel, ?_⟩
  obtain ⟨criterion, hcriterion, hholds, _⟩ :=
    Criterion.asks_for_hash (by decide) hkeyToken (by decide) hliteralToken hnumber
  refine ⟨criterion, hcriterion, (hholds "Happy Moth".toList ∅ []).2 (.inl ?_)⟩
  decide +kernel

/-- The hash of this text is no number, so the fact written from it is not found. -/
example : Hash.IsNan (Hash.ofText "rock".toList) ∧
    (Criterion.ofText "mood = rock".toList).toOption.map
      (·.holds [FactStore.addText ∅ "mood" "rock".toList]) = some false := by
  decide +kernel

end FactRules
