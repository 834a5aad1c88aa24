import FactRules.Proofs.Text.Ascii
import FactRules.Proofs.Text.Words

/-!
# Lower case and blanks

The lower-case form of a character has a blank only if the character is one
(`isBlank_of_mem_lowerChar`), so the blanks of a text could be dropped before or after its letters
are lowered, if it were not for the capital sigmas: whether one is final is told by the characters
beside it, and a blank among these ends a word. `finals` says which sigmas of a text are final, and
`lowerAs` is the lower-case form with the sigmas told; `withoutBlanks_lower` takes the two apart.
-/

namespace FactRules.Text

variable {c d : Char} {text : List Char}

/-! ## Characters -/

/-- A character is blank if it lies in one of the spans of blanks. -/
theorem isBlank_iff :
    isBlank c = true ↔ ∃ span ∈ blankSpans, span.first ≤ c.toNat ∧ c.toNat ≤ span.last := by
  rw [isBlank, inSpans, List.any_eq_true]
  simp only [decide_eq_true_eq]

/-- No blank is in a run of capitals. -/
theorem blankSpans_apart : ∀ run ∈ lowerRuns, ∀ span ∈ blankSpans,
    run.last < span.first ∨ span.last < run.first := by
  decide +kernel

/-- No blank is in a run of lower-case letters. -/
theorem blankSpans_apart_shifted : ∀ run ∈ lowerRuns, ∀ span ∈ blankSpans,
    (run.last : Int) + run.shift < span.first ∨ (span.last : Int) < run.first + run.shift := by
  decide +kernel

/-- A character in lower case is blank if it was: letters have lower case forms, blanks do not. -/
theorem isBlank_toLower (c : Char) : isBlank c.toLower = isBlank c := by
  by_cases hascii : c.toNat < 0x80
  · exact of_ascii (p := fun c => isBlank c.toLower = isBlank c) (by decide +kernel) hascii
  · rw [toLower_of_not_ascii hascii]

/-- The character of a number has this number, or none if the number is no code point. -/
theorem toNat_ofNat_cases (n : Nat) : (Char.ofNat n).toNat = n ∨ (Char.ofNat n).toNat = 0 := by
  rw [Char.ofNat]
  by_cases hvalid : n.isValidChar
  · rw [dif_pos hvalid]
    exact .inl rfl
  · rw [dif_neg hvalid]
    exact .inr rfl

/-- What a run makes of a character is no blank. -/
theorem isBlank_shifted {run : CaseRun} (hrun : run ∈ lowerRuns) (hfirst : run.first ≤ c.toNat)
    (hlast : c.toNat ≤ run.last) : isBlank (Char.ofNat (c.toNat + run.shift).toNat) = false := by
  refine Bool.eq_false_iff.2 fun hblank => ?_
  obtain ⟨span, hspan, hspanFirst, hspanLast⟩ := isBlank_iff.1 hblank
  have hapart := blankSpans_apart_shifted run hrun span hspan
  have hpositive : ∀ span ∈ blankSpans, 0 < span.first := by decide
  have hspanPositive := hpositive span hspan
  rcases toNat_ofNat_cases (c.toNat + run.shift).toNat with hcode | hcode <;> omega

/-- The lower-case form of a blank is blank, and that of another character has no blank. -/
theorem isBlank_of_mem_lowerChar (h : d ∈ lowerChar c) : isBlank d = isBlank c := by
  -- An ASCII character, the dotted capital, a character of a run, or any other one.
  rw [lowerChar] at h
  split at h
  · rw [List.mem_singleton.1 h, isBlank_toLower]
  · split at h
    · next hdotted =>
      subst hdotted
      rcases List.mem_cons.1 h with rfl | h
      · decide
      · obtain rfl := List.mem_singleton.1 h
        decide
    · split at h
      · next run hfind =>
        have hmem := List.mem_of_find?_eq_some hfind
        have hrun := List.find?_some hfind
        simp only [Bool.and_eq_true, decide_eq_true_eq] at hrun
        have hblank : isBlank c = false := by
          refine Bool.eq_false_iff.2 fun hblank => ?_
          obtain ⟨span, hspan, hfirst, hlast⟩ := isBlank_iff.1 hblank
          have hapart := blankSpans_apart run hmem span hspan
          omega
        rw [List.mem_singleton.1 h, isBlank_shifted hmem hrun.1.1 hrun.1.2, hblank]
      · rw [List.mem_singleton.1 h]

/-- Of the lower-case form of a character nothing is blank or all of it. -/
theorem withoutBlanks_lowerChar (c : Char) :
    withoutBlanks (lowerChar c) = if isBlank c then [] else lowerChar c := by
  split
  · next hblank =>
    refine List.filter_eq_nil_iff.2 fun d hmem => ?_
    rw [isBlank_of_mem_lowerChar hmem, hblank]
    exact Bool.false_ne_true
  · next hblank =>
    refine withoutBlanks_of_no_blank fun d hmem => ?_
    rw [isBlank_of_mem_lowerChar hmem]
    exact Bool.eq_false_iff.2 hblank

/-! ## Sigmas -/

/-- Whether each capital sigma of a text is final, if the characters before the text, nearest first,
are `before`. -/
def finalsAfter (before : List Char) : List Char → List Bool
  | [] => []
  | c :: rest =>
    if c = 'Σ' then
      (besideLetter before && !besideLetter rest) :: finalsAfter (c :: before) rest
    else finalsAfter (c :: before) rest

/-- Whether each capital sigma of a text is final. -/
def finals (text : List Char) : List Bool := finalsAfter [] text

/-- The lower-case form of a text if it is told whether each capital sigma is final. Where nothing
is told, none is. -/
def lowerAs : List Bool → List Char → List Char
  | _, [] => []
  | [], c :: rest => (if c = 'Σ' then ['σ'] else lowerChar c) ++ lowerAs [] rest
  | final :: others, c :: rest =>
    if c = 'Σ' then (if final then 'ς' else 'σ') :: lowerAs others rest
    else lowerChar c ++ lowerAs (final :: others) rest

/-- A character that is no capital sigma is lowered by itself. -/
theorem lowerAs_cons_of_ne (h : c ≠ 'Σ') (forms : List Bool) (rest : List Char) :
    lowerAs forms (c :: rest) = lowerChar c ++ lowerAs forms rest := by
  cases forms with
  | nil => rw [lowerAs, if_neg h]
  | cons final others => rw [lowerAs, if_neg h]

/-- The lower-case form of a text is told by its final sigmas. -/
theorem lower_eq_lowerAs (text : List Char) : lower text = lowerAs (finals text) text := by
  have hafter : ∀ before, lowerAfter before text = lowerAs (finalsAfter before text) text := by
    induction text with
    | nil => exact fun _ => rfl
    | cons c rest ih =>
      intro before
      rw [lowerAfter, finalsAfter, ih]
      split
      · next hsigma => rw [lowerAs, if_pos hsigma]; rfl
      · next hsigma => rw [lowerAs_cons_of_ne hsigma]
  exact hafter []

/-- There is one answer for each capital sigma. -/
theorem length_finals (text : List Char) : (finals text).length = text.count 'Σ' := by
  have hafter : ∀ before, (finalsAfter before text).length = text.count 'Σ' := by
    induction text with
    | nil => exact fun _ => rfl
    | cons c rest ih =>
      intro before
      rw [finalsAfter, List.count_cons]
      split
      · next hsigma => simp [hsigma, ih]
      · next hsigma => simp [hsigma, ih]
  exact hafter []

/-- Blanks may be dropped before the letters are lowered, if it is known which sigmas are final. -/
theorem withoutBlanks_lowerAs (forms : List Bool) (text : List Char) :
    withoutBlanks (lowerAs forms text) = lowerAs forms (withoutBlanks text) := by
  have hsigmas : isBlank 'Σ' = false ∧ isBlank 'σ' = false ∧ isBlank 'ς' = false := by decide
  induction text generalizing forms with
  | nil => cases forms <;> rfl
  | cons c rest ih =>
    rw [withoutBlanks_cons]
    by_cases hsigma : c = 'Σ'
    · subst hsigma
      rw [if_neg (by simp [hsigmas.1])]
      cases forms with
      | nil =>
        rw [lowerAs, lowerAs, if_pos rfl, ← ih, List.singleton_append, List.singleton_append,
          withoutBlanks_cons, hsigmas.2.1, if_neg Bool.false_ne_true]
      | cons final others =>
        have hform : isBlank (if final then 'ς' else 'σ') = false := by
          split
          · exact hsigmas.2.2
          · exact hsigmas.2.1
        rw [lowerAs, lowerAs, if_pos rfl, if_pos rfl, ← ih, withoutBlanks_cons, hform,
          if_neg Bool.false_ne_true]
    · rw [lowerAs_cons_of_ne hsigma, withoutBlanks, List.filter_append, ← withoutBlanks,
        ← withoutBlanks, withoutBlanks_lowerChar, ih]
      split
      · rfl
      · rw [lowerAs_cons_of_ne hsigma]

/-- What is left of the lower-case form of a text without its blanks is the text without its blanks,
lowered, but for the sigmas, which are as they are with the blanks. -/
theorem withoutBlanks_lower (text : List Char) :
    withoutBlanks (lower text) = lowerAs (finals text) (withoutBlanks text) := by
  rw [lower_eq_lowerAs, withoutBlanks_lowerAs]

/-- Blanks are no sigmas. -/
theorem length_finals_eq (text : List Char) :
    (finals text).length = (withoutBlanks text).count 'Σ' := by
  have hsigma : isBlank 'Σ' = false := by decide
  rw [length_finals, withoutBlanks, List.count_filter (by simp [hsigma])]

/-- Lower-case forms of one text tell which sigmas were final. -/
theorem lowerAs_inj {forms others : List Bool} (hforms : forms.length = text.count 'Σ')
    (hothers : others.length = text.count 'Σ') (h : lowerAs forms text = lowerAs others text) :
    forms = others := by
  induction text generalizing forms others with
  | nil =>
    rw [List.eq_nil_of_length_eq_zero hforms, List.eq_nil_of_length_eq_zero hothers]
  | cons c rest ih =>
    by_cases hsigma : c = 'Σ'
    · subst hsigma
      rw [List.count_cons_self] at hforms hothers
      obtain ⟨final, forms, rfl⟩ := List.exists_cons_of_length_eq_add_one hforms
      obtain ⟨other, others, rfl⟩ := List.exists_cons_of_length_eq_add_one hothers
      rw [lowerAs, lowerAs, if_pos rfl, if_pos rfl] at h
      obtain ⟨hform, hrest⟩ := List.cons.inj h
      have htold : ∀ final other : Bool,
          (if final then 'ς' else 'σ') = (if other then 'ς' else 'σ') → final = other := by
        decide
      rw [htold final other hform, ih (Nat.succ.inj hforms) (Nat.succ.inj hothers) hrest]
    · rw [List.count_cons_of_ne hsigma] at hforms hothers
      rw [lowerAs_cons_of_ne hsigma, lowerAs_cons_of_ne hsigma] at h
      exact ih hforms hothers (List.append_cancel_left h)

end FactRules.Text
