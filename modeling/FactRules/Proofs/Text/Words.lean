import FactRules.Text.Blank

/-!
# Words and blanks

Cutting a text at a blank cuts its words apart (`words_append_blank`), and a text without blanks is
one word (`words_of_no_blank`). What the words hold together is the text without its blanks
(`flatten_words`).
-/

namespace FactRules.Text

/-- A text without its blanks. -/
def withoutBlanks (text : List Char) : List Char := text.filter (!isBlank ·)

variable {c next : Char} {text rest front back : List Char}

/-- Blanks are left out one by one. -/
theorem withoutBlanks_cons (c : Char) (text : List Char) :
    withoutBlanks (c :: text) =
      if isBlank c then withoutBlanks text else c :: withoutBlanks text := by
  rw [withoutBlanks, List.filter_cons]
  cases isBlank c <;> rfl

/-- What the search for a blank tells, said of each character. -/
theorem no_blank_of_any (h : text.any isBlank = false) : ∀ c ∈ text, isBlank c = false :=
  fun c hmem => Bool.eq_false_iff.2 (List.any_eq_false.1 h c hmem)

/-- A text that has no blanks stays as it is. -/
theorem withoutBlanks_of_no_blank (h : ∀ c ∈ text, isBlank c = false) : withoutBlanks text = text :=
  List.filter_eq_self.2 fun c hmem => by rw [h c hmem, Bool.not_false]

/-- Blanks in front of a text have no part in its words. -/
theorem words_cons_blank (h : isBlank c = true) (rest : List Char) :
    words (c :: rest) = words rest := by
  rw [words, if_pos h]

/-- A character before a blank is a word, or ends one. -/
theorem words_cons_cons_blank (h : isBlank c = false) (hnext : isBlank next = true)
    (rest : List Char) : words (c :: next :: rest) = [c] :: words (next :: rest) := by
  rw [words, if_neg (by simp [h])]
  cases hwords : words (next :: rest) with
  | nil => rfl
  | cons word others => simp [hnext]

/-- A character before another one belongs to the word of the other one. -/
theorem words_cons_cons (h : isBlank c = false) (hnext : isBlank next = false)
    (rest : List Char) :
    ∃ word others, words (next :: rest) = word :: others ∧
      words (c :: next :: rest) = (c :: word) :: others := by
  have hsome : words (next :: rest) ≠ [] := by
    rw [words, if_neg (by simp [hnext])]
    split
    · split <;> exact List.cons_ne_nil _ _
    · exact List.cons_ne_nil _ _
  obtain ⟨word, others, hwords⟩ := List.exists_cons_of_ne_nil hsome
  refine ⟨word, others, hwords, ?_⟩
  rw [words, if_neg (by simp [h]), hwords]
  simp [hnext]

/-- The words of a text are those before and those after any blank of it. -/
theorem words_append_blank (hblank : isBlank c = true) (front back : List Char) :
    words (front ++ c :: back) = words front ++ words back := by
  induction front with
  | nil => exact words_cons_blank hblank back
  | cons first front ih =>
    cases hfirst : isBlank first with
    | true => rw [List.cons_append, words_cons_blank hfirst, words_cons_blank hfirst, ih]
    | false =>
      -- Whether a word ends with the first character is told by the one after it.
      cases front with
      | nil =>
        rw [List.cons_append, List.nil_append, words_cons_cons_blank hfirst hblank,
          words_cons_blank hblank]
        simp [words, hfirst]
      | cons second front =>
        rw [List.cons_append] at ih ⊢
        cases hsecond : isBlank second with
        | true =>
          rw [List.cons_append, words_cons_cons_blank hfirst hsecond,
            words_cons_cons_blank hfirst hsecond, ih, List.cons_append]
        | false =>
          obtain ⟨word, others, hwords, hfront⟩ := words_cons_cons hfirst hsecond front
          obtain ⟨whole, more, hwhole, hboth⟩ :=
            words_cons_cons hfirst hsecond (front ++ c :: back)
          rw [hwhole, hwords, List.cons_append] at ih
          obtain ⟨rfl, rfl⟩ := List.cons.inj ih
          rw [List.cons_append, hboth, hfront, List.cons_append]

/-- A text with no blank in it is one word, if it is not empty. -/
theorem words_of_no_blank (hne : text ≠ []) (h : ∀ c ∈ text, isBlank c = false) :
    words text = [text] := by
  induction text with
  | nil => exact absurd rfl hne
  | cons first rest ih =>
    have hfirst := h first (List.mem_cons_self ..)
    cases rest with
    | nil => simp [words, hfirst]
    | cons second rest =>
      have hrest := ih (List.cons_ne_nil _ _) fun c hmem => h c (List.mem_cons_of_mem _ hmem)
      obtain ⟨word, others, hwords, hall⟩ :=
        words_cons_cons hfirst (h second (by simp)) rest
      rw [hrest] at hwords
      obtain ⟨rfl, rfl⟩ := List.cons.inj hwords
      exact hall

/-- Blanks before a text make no words. -/
theorem words_blanks_append (h : ∀ c ∈ front, isBlank c = true) (text : List Char) :
    words (front ++ text) = words text := by
  induction front with
  | nil => rfl
  | cons first rest ih =>
    rw [List.cons_append, words_cons_blank (h first (List.mem_cons_self ..)),
      ih fun c hmem => h c (List.mem_cons_of_mem _ hmem)]

/-- Blanks after a text make no words. -/
theorem words_append_blanks (h : ∀ c ∈ back, isBlank c = true) (text : List Char) :
    words (text ++ back) = words text := by
  cases back with
  | nil => rw [List.append_nil]
  | cons first rest =>
    have hrest : words (rest ++ []) = words [] :=
      words_blanks_append (fun c hmem => h c (List.mem_cons_of_mem _ hmem)) []
    rw [List.append_nil] at hrest
    rw [words_append_blank (h first (List.mem_cons_self ..)), hrest]
    exact List.append_nil _

/-- A character between spaces is a word between those of the texts beside it. -/
theorem words_around {mark : Char} (hmark : isBlank mark = false) (front back : List Char) :
    words (front ++ [' ', mark, ' '] ++ back) = words front ++ [mark] :: words back := by
  have hspace : isBlank ' ' = true := by decide
  rw [List.append_assoc, List.cons_append, words_append_blank hspace, List.cons_append,
    List.cons_append, words_cons_cons_blank hmark hspace, words_cons_blank hspace]
  rfl

/-- The words of a text hold all of it but its blanks. -/
theorem flatten_words (text : List Char) : (words text).flatten = withoutBlanks text := by
  induction text with
  | nil => rfl
  | cons first rest ih =>
    rw [withoutBlanks_cons]
    cases hfirst : isBlank first with
    | true => rw [words_cons_blank hfirst, ih, if_pos rfl]
    | false =>
      rw [if_neg Bool.false_ne_true, ← ih]
      cases rest with
      | nil => simp [words, hfirst]
      | cons second rest =>
        cases hsecond : isBlank second with
        | true => rw [words_cons_cons_blank hfirst hsecond]; rfl
        | false =>
          obtain ⟨word, others, hwords, hall⟩ := words_cons_cons hfirst hsecond rest
          rw [hall, hwords]
          rfl

end FactRules.Text
