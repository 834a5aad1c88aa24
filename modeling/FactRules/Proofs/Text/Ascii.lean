import FactRules.Text.Case

/-!
# ASCII characters

What holds of each of the 128 ASCII characters is found by looking at each of them (`of_ascii`).
Letters and digits of the ASCII classes are such characters, and `IsCased` is what their case has to
do with one another.
-/

namespace FactRules.Text

variable {c : Char}

/-- Something holds of an ASCII character if it holds of the character of each small number. -/
theorem of_ascii {p : Char → Prop} (h : ∀ n < 0x80, p (Char.ofNat n)) (hc : c.toNat < 0x80) :
    p c :=
  Char.ofNat_toNat c ▸ h c.toNat hc

/-- Digits are ASCII characters. -/
theorem ascii_of_isDigit (h : c.isDigit = true) : c.toNat < 0x80 := by
  have hbounds := (Bool.and_eq_true _ _).mp h
  exact Nat.lt_of_le_of_lt (UInt32.le_iff_toNat_le.1 (of_decide_eq_true hbounds.2)) (by decide)

/-- So are the letters that the core library counts as capitals. -/
theorem ascii_of_isUpper (h : c.isUpper = true) : c.toNat < 0x80 := by
  have hbounds : 'A'.val ≤ c.val ∧ c.val ≤ 'Z'.val := of_decide_eq_true h
  exact Nat.lt_of_le_of_lt (UInt32.le_iff_toNat_le.1 hbounds.2) (by decide)

/-- And so are its small letters. -/
theorem ascii_of_isLower (h : c.isLower = true) : c.toNat < 0x80 := by
  have hbounds := (Bool.and_eq_true _ _).mp h
  exact Nat.lt_of_le_of_lt (UInt32.le_iff_toNat_le.1 (of_decide_eq_true hbounds.2)) (by decide)

/-- What is no capital is in lower case. -/
theorem toLower_of_not_isUpper (h : c.isUpper = false) : c.toLower = c :=
  dif_neg (of_decide_eq_false h)

/-- What is no small letter is in upper case. -/
theorem toUpper_of_not_isLower (h : c.isLower = false) : c.toUpper = c :=
  dif_neg fun ⟨hfirst, hlast⟩ => Bool.eq_false_iff.1 h
    ((Bool.and_eq_true _ _).mpr ⟨decide_eq_true hfirst, decide_eq_true hlast⟩)

/-- Beyond ASCII no character has another one in lower case here. -/
theorem toLower_of_not_ascii (h : ¬ c.toNat < 0x80) : c.toLower = c :=
  toLower_of_not_isUpper (Bool.eq_false_iff.2 fun hupper => h (ascii_of_isUpper hupper))

/-! ## Case -/

/-- What the case of an ASCII character has to do with its other forms: in lower case it is an ASCII
character and no capital, and either case undoes the other one; a small letter has a capital as its
upper case, and a capital is neither a small letter nor a digit. -/
structure IsCased (c : Char) : Prop where
  lower_ascii : c.toLower.toNat < 0x80
  lower_plain : c.toLower.isUpper = false
  upper_lower : c.toLower.toUpper = c.toUpper
  lower_upper : c.toUpper.toLower = c.toLower
  upper_small : c.isLower = true → c.toUpper.isUpper = true
  capital : c.isUpper = true → (c.isLower || c.isDigit) = false

instance (c : Char) : Decidable (IsCased c) :=
  decidable_of_iff
    (c.toLower.toNat < 0x80 ∧ c.toLower.isUpper = false ∧ c.toLower.toUpper = c.toUpper ∧
      c.toUpper.toLower = c.toLower ∧ (c.isLower = true → c.toUpper.isUpper = true) ∧
      (c.isUpper = true → (c.isLower || c.isDigit) = false))
    ⟨fun ⟨h₁, h₂, h₃, h₄, h₅, h₆⟩ => ⟨h₁, h₂, h₃, h₄, h₅, h₆⟩,
      fun ⟨h₁, h₂, h₃, h₄, h₅, h₆⟩ => ⟨h₁, h₂, h₃, h₄, h₅, h₆⟩⟩

/-- All ASCII characters are like this. -/
theorem isCased_of_ascii (h : c.toNat < 0x80) : IsCased c :=
  of_ascii (p := IsCased) (by decide +kernel) h

/-- There is no capital in lower case. -/
theorem not_isUpper_toLower (c : Char) : c.toLower.isUpper = false := by
  cases h : c.isUpper with
  | true => exact (isCased_of_ascii (ascii_of_isUpper h)).lower_plain
  | false => rw [toLower_of_not_isUpper h, h]

/-- The upper case undoes a change to lower case. -/
theorem toUpper_toLower (c : Char) : c.toLower.toUpper = c.toUpper := by
  cases h : c.isUpper with
  | true => exact (isCased_of_ascii (ascii_of_isUpper h)).upper_lower
  | false => rw [toLower_of_not_isUpper h]

/-- The lower case undoes a change to upper case. -/
theorem toLower_toUpper (c : Char) : c.toUpper.toLower = c.toLower := by
  cases h : c.isLower with
  | true => exact (isCased_of_ascii (ascii_of_isLower h)).lower_upper
  | false => rw [toUpper_of_not_isLower h]

/-- A small letter is a capital in upper case. -/
theorem isUpper_toUpper (h : c.isLower = true) : c.toUpper.isUpper = true :=
  (isCased_of_ascii (ascii_of_isLower h)).upper_small h

/-- An ASCII text in lower case is one. -/
theorem ascii_map_toLower {text : List Char} (h : ∀ c ∈ text, c.toNat < 0x80) :
    ∀ c ∈ text.map Char.toLower, c.toNat < 0x80 :=
  List.forall_mem_map.2 fun c hc => (isCased_of_ascii (h c hc)).lower_ascii

/-- An ASCII text is lowered character by character. -/
theorem lower_of_ascii {text : List Char} (h : ∀ c ∈ text, c.toNat < 0x80) :
    lower text = text.map Char.toLower := by
  have hafter : ∀ before, lowerAfter before text = text.map Char.toLower := by
    induction text with
    | nil => exact fun _ => rfl
    | cons c rest ih =>
      intro before
      obtain ⟨hc, hrest⟩ := List.forall_mem_cons.1 h
      have hsigma : c ≠ 'Σ' := by
        rintro rfl
        exact absurd hc (by decide)
      rw [lowerAfter, if_neg hsigma, lowerChar, if_pos hc, ih hrest]
      rfl
  exact hafter []

/-- An ASCII text has a capital form, character by character. -/
theorem mapM_upperAscii? {text : List Char} (h : ∀ c ∈ text, c.toNat < 0x80) :
    text.mapM upperAscii? = some (text.map fun c => [c.toUpper]) := by
  induction text with
  | nil => rfl
  | cons c rest ih =>
    obtain ⟨hc, hrest⟩ := List.forall_mem_cons.1 h
    have hupper : upperAscii? c = some [c.toUpper] := by
      unfold upperAscii?
      exact if_pos hc
    rw [List.mapM_cons, hupper, ih hrest]
    rfl

/-- A capital is neither a small letter nor a digit. -/
theorem not_small_of_isUpper (h : c.isUpper = true) : (c.isLower || c.isDigit) = false :=
  (isCased_of_ascii (ascii_of_isUpper h)).capital h

/-- Neither a small letter nor a digit is a capital. -/
theorem not_isUpper_of_small (h : (c.isLower || c.isDigit) = true) : c.isUpper = false := by
  refine Bool.eq_false_iff.2 fun hupper => ?_
  rw [not_small_of_isUpper hupper] at h
  exact Bool.false_ne_true h

end FactRules.Text
