import FactRules.Proofs.Text.Words
import FactRules.Text.Pieces
import Mathlib.Data.List.DropRight

/-!
# Blanks around words and pieces

A text is made of words with blanks around them. `words_eq_cons_iff` takes the first word off a text
together with the blanks before it, and `words_eq_nil_iff` says when none is left, so these two tell
how the texts with given words are spaced. A text without its blanks at both ends is what stands
between blanks (`trim_around`, `exists_around_trim`), and the pieces of a text are what stands
between separators (`pieces_append_cons`).
-/

namespace FactRules.Text

/-- All characters of a text are blank; the text may be empty. -/
def IsBlanks (text : List Char) : Prop := ∀ c ∈ text, isBlank c = true

/-- A text is not empty, and none of its characters is blank. -/
def IsWord (text : List Char) : Prop := text ≠ [] ∧ ∀ c ∈ text, isBlank c = false

/-- At least one blank, and nothing but blanks. -/
structure IsGap (text : List Char) : Prop where
  blanks : IsBlanks text
  ne_nil : text ≠ []

/-- A text is empty or begins with a blank. -/
def IsBreak (text : List Char) : Prop := ∀ c ∈ text.head?, isBlank c = true

/-- A text is not empty and neither begins nor ends with a blank. -/
structure IsTrimmed (text : List Char) : Prop where
  ne_nil : text ≠ []
  head : ∀ c ∈ text.head?, isBlank c = false
  last : ∀ c ∈ text.getLast?, isBlank c = false

variable {before word gap after text rest piece : List Char}

/-! ## Blanks at the ends -/

/-- A text begins with as many blanks as can be taken from its front. -/
theorem isBlanks_takeWhile (text : List Char) : IsBlanks (text.takeWhile isBlank) :=
  fun _ hmem => List.mem_takeWhile_imp hmem

/-- What is left begins with something else. -/
theorem eq_false_of_head_dropWhile {p : Char → Bool} {c : Char} {text : List Char}
    (h : (text.dropWhile p).head? = some c) : p c = false := by
  have hhead := List.head?_dropWhile_not p text
  rwa [h] at hhead

/-- Blanks after blanks are blanks. -/
theorem IsBlanks.append (h : IsBlanks before) (h' : IsBlanks after) : IsBlanks (before ++ after) :=
  List.forall_mem_append.2 ⟨h, h'⟩

/-- A text of blanks is empty or begins with one. -/
theorem IsBlanks.isBreak (h : IsBlanks text) : IsBreak text :=
  fun c hc => h c (List.mem_of_mem_head? hc)

/-- A word ends before a gap, whatever comes after the gap. -/
theorem IsGap.isBreak_append (h : IsGap gap) (text : List Char) : IsBreak (gap ++ text) := by
  rw [IsBreak, List.head?_append_of_ne_nil _ h.ne_nil]
  exact h.blanks.isBreak

/-- A break is empty, or it begins with a gap. -/
theorem IsBreak.isGap_takeWhile (h : IsBreak text) (hne : text ≠ []) :
    IsGap (text.takeWhile isBlank) where
  blanks := isBlanks_takeWhile text
  ne_nil := by
    obtain ⟨c, rest, rfl⟩ := List.exists_cons_of_ne_nil hne
    have hblank : isBlank c = true := h c rfl
    rw [List.takeWhile_cons, if_pos hblank]
    exact List.cons_ne_nil _ _

/-- A text that does not begin with a blank has none to be taken from its front. -/
theorem dropWhile_of_head (h : ∀ c ∈ text.head?, isBlank c = false) :
    text.dropWhile isBlank = text := by
  cases text with
  | nil => rfl
  | cons c rest => rw [List.dropWhile_cons, h c rfl, if_neg Bool.false_ne_true]

/-- Blanks at the end are dropped, and all of them. -/
theorem trimEnd_append_blanks (h : IsBlanks after) (text : List Char) :
    trimEnd (text ++ after) = trimEnd text := by
  have hreverse : ∀ c ∈ after.reverse, isBlank c = true :=
    fun c hmem => h c (List.mem_reverse.1 hmem)
  rw [trimEnd, trimEnd, List.reverse_append, List.dropWhile_append_of_pos hreverse]

/-- A text that does not end with a blank has none to be taken from its end. -/
theorem trimEnd_of_last (h : ∀ c ∈ text.getLast?, isBlank c = false) : trimEnd text = text := by
  refine List.rdropWhile_eq_self_iff.2 fun hne => ?_
  rw [h _ (List.getLast?_eq_some_getLast hne)]
  exact Bool.false_ne_true

/-- Between blanks stands what is left of a text once it is trimmed. -/
theorem trim_around (hbefore : IsBlanks before) (htrimmed : IsTrimmed text)
    (hafter : IsBlanks after) : trim (before ++ text ++ after) = text := by
  have hhead : ∀ c ∈ (text ++ after).head?, isBlank c = false := by
    rw [List.head?_append_of_ne_nil _ htrimmed.ne_nil]
    exact htrimmed.head
  rw [trim, List.append_assoc, List.dropWhile_append_of_pos hbefore, dropWhile_of_head hhead,
    trimEnd_append_blanks hafter, trimEnd_of_last htrimmed.last]

/-- Of blanks, trimming leaves nothing. -/
theorem trim_blanks (h : IsBlanks text) : trim text = [] := by
  rw [trim, List.dropWhile_eq_nil_iff.2 h]
  rfl

/-- Trimming takes blanks off both ends. -/
theorem exists_around_trim (text : List Char) :
    ∃ before after, IsBlanks before ∧ IsBlanks after ∧ text = before ++ trim text ++ after := by
  refine ⟨text.takeWhile isBlank, (text.dropWhile isBlank).rtakeWhile isBlank,
    isBlanks_takeWhile text, fun c hmem => List.mem_rtakeWhile_imp hmem, ?_⟩
  have hend : trim text ++ (text.dropWhile isBlank).rtakeWhile isBlank = text.dropWhile isBlank :=
    List.rdropWhile_append_rtakeWhile ..
  rw [List.append_assoc, hend, List.takeWhile_append_dropWhile]

/-- What is left of a text once it is trimmed neither begins nor ends with a blank. -/
theorem isTrimmed_trim (h : trim text ≠ []) : IsTrimmed (trim text) where
  ne_nil := h
  head c hc := by
    have hprefix : trim text <+: text.dropWhile isBlank := List.rdropWhile_prefix ..
    obtain ⟨rest, hrest⟩ := hprefix
    have hhead : (text.dropWhile isBlank).head? = some c := by
      rw [← hrest, List.head?_append_of_ne_nil _ h]
      exact hc
    exact eq_false_of_head_dropWhile hhead
  last c hc := by
    obtain rfl := Option.some.inj ((List.getLast?_eq_some_getLast h).symm.trans hc)
    exact Bool.eq_false_iff.2 (List.rdropWhile_last_not isBlank _ h)

/-! ## Taking words off -/

/-- A word that a break follows is the first word of a text. -/
theorem words_word_append (hword : IsWord word) (hrest : IsBreak rest) :
    words (word ++ rest) = word :: words rest := by
  cases rest with
  | nil =>
    rw [List.append_nil, words_of_no_blank hword.1 hword.2]
    rfl
  | cons c rest =>
    have hblank : isBlank c = true := hrest c rfl
    rw [words_append_blank hblank, words_of_no_blank hword.1 hword.2, words_cons_blank hblank]
    rfl

/-- A text is blank, or it has a first word. -/
theorem exists_first_word (text : List Char) : IsBlanks text ∨
    ∃ before word rest, IsBlanks before ∧ IsWord word ∧ IsBreak rest ∧
      text = before ++ (word ++ rest) := by
  by_cases hnil : text.dropWhile isBlank = []
  · exact .inl (List.dropWhile_eq_nil_iff.1 hnil)
  · obtain ⟨c, others, hcons⟩ := List.exists_cons_of_ne_nil hnil
    have hhead : (text.dropWhile isBlank).head? = some c := by
      rw [hcons]
      rfl
    have hfirst : isBlank c = false := eq_false_of_head_dropWhile hhead
    refine .inr ⟨text.takeWhile isBlank, (text.dropWhile isBlank).takeWhile (!isBlank ·),
      (text.dropWhile isBlank).dropWhile (!isBlank ·), isBlanks_takeWhile text, ⟨?_, ?_⟩, ?_, ?_⟩
    · rw [hcons, List.takeWhile_cons, hfirst]
      exact List.cons_ne_nil _ _
    · intro d hmem
      have hletter := List.mem_takeWhile_imp hmem
      rwa [Bool.not_eq_true'] at hletter
    · intro d hd
      have hblank := eq_false_of_head_dropWhile hd
      rwa [Bool.not_eq_false'] at hblank
    · rw [List.takeWhile_append_dropWhile, List.takeWhile_append_dropWhile]

/-- A text without words is blank. -/
theorem words_eq_nil_iff : words text = [] ↔ IsBlanks text := by
  constructor
  · intro hnil
    rcases exists_first_word text with hblanks | ⟨before, word, rest, hbefore, hword, hrest, rfl⟩
    · exact hblanks
    · rw [words_blanks_append hbefore, words_word_append hword hrest] at hnil
      cases hnil
  · intro hblanks
    have hwords := words_blanks_append hblanks []
    rwa [List.append_nil] at hwords

/-- The first word of a text stands behind blanks and before a break, after which the other words
come. -/
theorem words_eq_cons_iff {others : List (List Char)} : words text = word :: others ↔
    ∃ before rest, IsBlanks before ∧ IsWord word ∧ IsBreak rest ∧
      text = before ++ (word ++ rest) ∧ words rest = others := by
  constructor
  · intro hcons
    rcases exists_first_word text with hblanks | ⟨before, first, rest, hbefore, hfirst, hrest, rfl⟩
    · rw [words_eq_nil_iff.2 hblanks] at hcons
      cases hcons
    · rw [words_blanks_append hbefore, words_word_append hfirst hrest] at hcons
      obtain ⟨rfl, hothers⟩ := List.cons.inj hcons
      exact ⟨before, rest, hbefore, hfirst, hrest, rfl, hothers⟩
  · rintro ⟨before, rest, hbefore, hword, hrest, rfl, rfl⟩
    rw [words_blanks_append hbefore, words_word_append hword hrest]

/-- The first word of a break stands behind a gap. -/
theorem IsBreak.words_eq_cons_iff (h : IsBreak text) {others : List (List Char)} :
    words text = word :: others ↔
      ∃ gap rest, IsGap gap ∧ IsWord word ∧ IsBreak rest ∧
        text = gap ++ (word ++ rest) ∧ words rest = others := by
  rw [Text.words_eq_cons_iff]
  constructor
  · rintro ⟨before, rest, hbefore, hword, hrest, rfl, hothers⟩
    refine ⟨before, rest, ⟨hbefore, ?_⟩, hword, hrest, rfl, hothers⟩
    -- Without blanks before it the word would begin the break.
    rintro rfl
    obtain ⟨c, letters, rfl⟩ := List.exists_cons_of_ne_nil hword.1
    have hblank : isBlank c = true := h c rfl
    rw [hword.2 c (List.mem_cons_self ..)] at hblank
    cases hblank
  · rintro ⟨gap, rest, hgap, hword, hrest, rfl, hothers⟩
    exact ⟨gap, rest, hgap.blanks, hword, hrest, rfl, hothers⟩

/-- What comes after the first word is what comes after the blanks behind it. -/
theorem afterFirstWord_eq (hbefore : IsBlanks before) (hword : IsWord word) (hrest : IsBreak rest) :
    afterFirstWord (before ++ (word ++ rest)) = rest.dropWhile isBlank := by
  have hfirst : ∀ c ∈ (word ++ rest).head?, isBlank c = false := by
    rw [List.head?_append_of_ne_nil _ hword.1]
    exact fun c hc => hword.2 c (List.mem_of_mem_head? hc)
  have hletters : ∀ c ∈ word, (!isBlank c) = true := by
    intro c hmem
    rw [hword.2 c hmem]
    rfl
  rw [afterFirstWord, List.dropWhile_append_of_pos hbefore, dropWhile_of_head hfirst,
    List.dropWhile_append_of_pos hletters]
  congr 1
  cases rest with
  | nil => rfl
  | cons c rest =>
    have hblank : isBlank c = true := hrest c rfl
    rw [List.dropWhile_cons, hblank]
    rfl

/-! ## Cutting pieces -/

variable {separator : Char}

/-- A text without the separator is a single piece. -/
theorem pieces_of_not_mem (h : separator ∉ piece) : pieces separator piece = [piece] := by
  induction piece with
  | nil => rfl
  | cons c piece ih =>
    have hne := List.ne_of_not_mem_cons h
    rw [pieces, if_neg (Ne.symm hne), ih (List.not_mem_of_not_mem_cons h)]

/-- The first piece of a text ends at its first separator. -/
theorem pieces_append_cons (h : separator ∉ piece) (rest : List Char) :
    pieces separator (piece ++ separator :: rest) = piece :: pieces separator rest := by
  induction piece with
  | nil => rw [List.nil_append, pieces, if_pos rfl]
  | cons c piece ih =>
    have hne := List.ne_of_not_mem_cons h
    rw [List.cons_append, pieces, if_neg (Ne.symm hne), ih (List.not_mem_of_not_mem_cons h)]

/-- Texts that are joined by a separator are the pieces again, if none of them has one. -/
theorem pieces_intercalate : ∀ {texts : List (List Char)}, texts ≠ [] →
    (∀ text ∈ texts, separator ∉ text) → pieces separator ([separator].intercalate texts) = texts
  | [], hne, _ => absurd rfl hne
  | [text], _, h => by
    rw [List.intercalate_singleton, pieces_of_not_mem (h text List.mem_cons_self)]
  | text :: next :: texts, _, h => by
    obtain ⟨htext, hothers⟩ := List.forall_mem_cons.1 h
    rw [List.intercalate_cons_cons, List.append_assoc, List.singleton_append,
      pieces_append_cons htext, pieces_intercalate (List.cons_ne_nil _ _) hothers]

end FactRules.Text
