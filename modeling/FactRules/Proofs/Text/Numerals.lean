import FactRules.Numeral
import FactRules.Proofs.Text.LowerCase

/-!
# Numerals are single words

A text that is read as a numeral has one word, and this word is read as the same double
(`Numeral.words_of_read?`): what may stand around a numeral is blank, and nothing in it is. So a
numeral that is one of several terms of a text keeps its meaning.
-/

namespace FactRules

namespace Text

/-- Digits are not blank. -/
theorem isBlank_of_isDigit {c : Char} (h : c.isDigit = true) : isBlank c = false :=
  of_ascii (p := fun c => c.isDigit = true → isBlank c = false) (by decide +kernel)
    (ascii_of_isDigit h) h

end Text

namespace Numeral

variable {c s : Char} {text plain joined : List Char}

/-! ## What a numeral is read from -/

/-- The characters of a text have plain forms exactly if each of them has one. -/
theorem mapM_plain?_eq_some_iff :
    text.mapM plain? = some plain ↔ text.map plain? = plain.map some := by
  induction text generalizing plain with
  | nil => cases plain <;> simp
  | cons first rest ih =>
    rw [List.mapM_cons, List.map_cons]
    constructor
    · intro h
      obtain ⟨s, hfirst, h⟩ := Option.bind_eq_some_iff.1 h
      obtain ⟨others, hrest, h⟩ := Option.bind_eq_some_iff.1 h
      rw [← Option.some.inj h, List.map_cons, hfirst, ih.1 hrest]
    · intro h
      cases plain with
      | nil => cases h
      | cons s others =>
        obtain ⟨hfirst, hrest⟩ := List.cons.inj h
        exact Option.bind_eq_some_iff.2 ⟨s, hfirst,
          Option.bind_eq_some_iff.2 ⟨others, ih.2 hrest, rfl⟩⟩

/-- The double that a numeral stands for, after its sign. -/
def afterSign? (negative : Bool) (body : List Char) : Option Double :=
  let word := String.ofList (body.map Char.toLower)
  if word = "inf" || word = "infinity" then some (.infinity negative)
  else if word = "nan" then some .nan
  else (decimal? body).map fun (digits, exponent) => .ofDecimal negative digits exponent

/-- A text without the spaces at its ends. -/
def trimSpaces (text : List Char) : List Char :=
  ((text.dropWhile isSpace).reverse.dropWhile isSpace).reverse

/-- Only spaces are cut off at either end. -/
theorem exists_trimSpaces (text : List Char) :
    ∃ before after, text = before ++ trimSpaces text ++ after ∧
      (∀ c ∈ before, isSpace c = true) ∧ ∀ c ∈ after, isSpace c = true := by
  refine ⟨text.takeWhile isSpace, ((text.dropWhile isSpace).reverse.takeWhile isSpace).reverse,
    ?_, List.all_eq_true.1 List.all_takeWhile, ?_⟩
  · rw [trimSpaces, List.append_assoc, ← List.reverse_append, List.takeWhile_append_dropWhile,
      List.reverse_reverse, List.takeWhile_append_dropWhile]
  · intro c hmem
    exact List.all_eq_true.1 List.all_takeWhile c (List.mem_reverse.1 hmem)

/-- A numeral is read in steps: its digits are made plain, spaces are cut off and underscores taken
out, and after the sign there is a number. -/
theorem read?_eq_some_iff {x : Double} :
    read? text = some x ↔ ∃ plain joined, text.mapM plain? = some plain ∧
      joinDigits? false (trimSpaces plain) = some joined ∧
      afterSign? (takeSign joined).1 (takeSign joined).2 = some x := by
  constructor
  · intro h
    obtain ⟨plain, hplain, h⟩ := Option.bind_eq_some_iff.1 h
    obtain ⟨joined, hjoined, h⟩ := Option.bind_eq_some_iff.1 h
    exact ⟨plain, joined, hplain, hjoined, h⟩
  · rintro ⟨plain, joined, hplain, hjoined, h⟩
    exact Option.bind_eq_some_iff.2 ⟨plain, hplain, Option.bind_eq_some_iff.2 ⟨joined, hjoined, h⟩⟩

/-! ## No blank is in a numeral -/

/-- Spaces around a numeral are blanks of a text. -/
theorem isBlank_of_isSpace (h : isSpace c = true) : Text.isBlank c = true := by
  have hascii : c.toNat < 0x80 := by
    simp only [isSpace, Bool.or_eq_true, decide_eq_true_eq] at h
    rcases h with rfl | h
    · decide
    · omega
  exact Text.of_ascii (p := fun c => isSpace c = true → Text.isBlank c = true) (by decide +kernel)
    hascii h

/-- From a text without blanks nothing is cut off. -/
theorem trimSpaces_of_no_blank (h : ∀ c ∈ text, Text.isBlank c = false) :
    trimSpaces text = text := by
  have hspace : ∀ text : List Char, (∀ c ∈ text, Text.isBlank c = false) →
      text.dropWhile isSpace = text := by
    intro text h
    cases text with
    | nil => rfl
    | cons first rest =>
      refine List.dropWhile_cons_of_neg fun hspace => ?_
      have hfirst := h first (List.mem_cons_self ..)
      rw [isBlank_of_isSpace hspace] at hfirst
      cases hfirst
  rw [trimSpaces, hspace text h, hspace text.reverse fun c hmem => h c (List.mem_reverse.1 hmem),
    List.reverse_reverse]

/-- A character stands for a blank exactly if it is one. -/
theorem isBlank_plain (h : plain? c = some s) : Text.isBlank s = Text.isBlank c := by
  rw [plain?] at h
  split at h
  · rw [Option.some.inj h]
  · split at h
    · next hblank =>
      rw [← Option.some.inj h, hblank]
      decide
    · next hblank =>
      obtain ⟨value, hvalue, rfl⟩ := Option.map_eq_some_iff.1 h
      have hdigits : ∀ value < 10, Text.isBlank (Char.ofNat ('0'.toNat + value)) = false := by
        decide
      obtain ⟨first, hfirst, rfl⟩ := Option.map_eq_some_iff.1 hvalue
      have hrow := List.find?_some hfirst
      rw [decide_eq_true_eq] at hrow
      rw [hdigits _ (by omega), Bool.eq_false_iff.2 hblank]

/-- What stands for blanks is blank. -/
theorem isBlank_of_map_plain (h : text.map plain? = plain.map some) {blank : Bool}
    (hplain : ∀ s ∈ plain, Text.isBlank s = blank) : ∀ c ∈ text, Text.isBlank c = blank := by
  intro c hmem
  obtain ⟨s, hs, hc⟩ := List.mem_map.1 (h ▸ List.mem_map_of_mem hmem)
  rw [← isBlank_plain hc.symm, hplain s hs]

/-- Digits are no blanks. -/
theorem no_blank_of_digits {digits : List Char} (h : digits.all Char.isDigit = true) :
    ∀ c ∈ digits, Text.isBlank c = false :=
  fun c hmem => Text.isBlank_of_isDigit (List.all_eq_true.1 h c hmem)

/-- A blank is no sign. -/
theorem mem_takeSign (hmem : c ∈ text) (h : Text.isBlank c = true) : c ∈ (takeSign text).2 := by
  have hminus : Text.isBlank '-' = false ∧ Text.isBlank '+' = false := by decide
  rw [takeSign.eq_def]
  split <;> grind

/-- There is no blank in an exponent that is read. -/
theorem no_blank_of_exponent? {e : Int} (h : exponent? text = some e) :
    ∀ c ∈ text, Text.isBlank c = false := by
  cases text with
  | nil => nofun
  | cons mark rest =>
    rcases hsign : takeSign rest with ⟨negative, digits⟩
    rw [exponent?, hsign] at h
    dsimp only at h
    split at h
    · next hshape =>
      simp only [Bool.and_eq_true, Bool.or_eq_true, decide_eq_true_eq] at hshape
      intro c hmem
      rcases List.mem_cons.1 hmem with rfl | hrest
      · rcases hshape.1.1 with rfl | rfl <;> decide
      · refine Bool.eq_false_iff.2 fun hblank => ?_
        have hdigit := mem_takeSign hrest hblank
        rw [hsign] at hdigit
        exact Bool.false_ne_true ((no_blank_of_digits hshape.2 c hdigit).symm.trans hblank)
    · cases h

/-- There is no blank in the digits that a text begins with. -/
theorem no_blank_of_takeWhile (text : List Char) :
    ∀ c ∈ text.takeWhile Char.isDigit, Text.isBlank c = false :=
  no_blank_of_digits List.all_takeWhile

/-- There is no blank in a decimal that is read: it is digits, perhaps a dot and more digits,
perhaps an exponent. -/
theorem no_blank_of_decimal? {value : Nat × Int} (h : decimal? text = some value) :
    ∀ c ∈ text, Text.isBlank c = false := by
  have hrest : ∀ c ∈ text.dropWhile Char.isDigit, Text.isBlank c = false := by
    unfold decimal? at h
    dsimp only at h
    split at h
    · next more heq =>
      split at h
      · cases h
      · obtain ⟨e, he, _⟩ := Option.map_eq_some_iff.1 h
        have htail := no_blank_of_exponent? he
        have hpoint : Text.isBlank '.' = false := by decide
        rw [heq, ← List.takeWhile_append_dropWhile (p := Char.isDigit) (l := more)]
        grind [no_blank_of_takeWhile]
    · split at h
      · cases h
      · obtain ⟨e, he, _⟩ := Option.map_eq_some_iff.1 h
        exact no_blank_of_exponent? he
  rw [← List.takeWhile_append_dropWhile (p := Char.isDigit) (l := text)]
  exact List.forall_mem_append.2 ⟨no_blank_of_takeWhile text, hrest⟩

/-- Nor is there one in what is read after a sign, the words for what is no finite number
included. -/
theorem no_blank_of_afterSign? {negative : Bool} {x : Double}
    (h : afterSign? negative text = some x) : ∀ c ∈ text, Text.isBlank c = false := by
  have hword : ∀ word ∈ ["inf", "infinity", "nan"], String.ofList (text.map Char.toLower) = word →
      ∀ c ∈ text, Text.isBlank c = false := by
    intro word hword heq c hmem
    have hletters : ∀ word ∈ ["inf", "infinity", "nan"],
        word.toList.any Text.isBlank = false := by
      decide +kernel
    rw [← Text.isBlank_toLower]
    refine Text.no_blank_of_any (hletters word hword) _ ?_
    rw [← heq, String.toList_ofList]
    exact List.mem_map_of_mem hmem
  unfold afterSign? at h
  dsimp only at h
  split at h
  · next hinfinite =>
    rw [Bool.or_eq_true, decide_eq_true_eq, decide_eq_true_eq] at hinfinite
    rcases hinfinite with heq | heq
    · exact hword _ (by simp) heq
    · exact hword _ (by simp) heq
  · split at h
    · next heq => exact hword _ (by simp) heq
    · obtain ⟨value, hvalue, _⟩ := Option.map_eq_some_iff.1 h
      exact no_blank_of_decimal? hvalue

/-- A blank is no underscore. -/
theorem mem_joinDigits? {afterDigit : Bool} (hjoined : joinDigits? afterDigit text = some joined)
    (hmem : c ∈ text) (h : Text.isBlank c = true) : c ∈ joined := by
  have hunderscore : Text.isBlank '_' = false := by decide
  fun_induction joinDigits? afterDigit text generalizing joined with
  | case1 => cases hmem
  | case2 afterDigit next rest hdigits ih =>
    obtain ⟨others, hothers, rfl⟩ := Option.map_eq_some_iff.1 hjoined
    grind
  | case3 => cases hjoined
  | case4 => cases hjoined
  | case5 afterDigit first rest _ _ ih =>
    obtain ⟨others, hothers, rfl⟩ := Option.map_eq_some_iff.1 hjoined
    grind

/-- Nothing in a numeral is blank, and it is not empty. -/
theorem no_blank_of_read? {afterDigit : Bool} {x : Double}
    (hjoined : joinDigits? afterDigit text = some joined)
    (h : afterSign? (takeSign joined).1 (takeSign joined).2 = some x) :
    text ≠ [] ∧ ∀ c ∈ text, Text.isBlank c = false := by
  constructor
  · rintro rfl
    cases hjoined
    cases h
  · intro c hmem
    refine Bool.eq_false_iff.2 fun hblank => ?_
    have hbody := mem_takeSign (mem_joinDigits? hjoined hmem hblank) hblank
    exact Bool.false_ne_true ((no_blank_of_afterSign? h c hbody).symm.trans hblank)

/-- The text of a numeral is the numeral, with nothing in it blank, between blanks. -/
theorem exists_token {x : Double} (h : read? text = some x) :
    ∃ front token back, text = front ++ token ++ back ∧ (∀ c ∈ front, Text.isBlank c = true) ∧
      (∀ c ∈ back, Text.isBlank c = true) ∧ token ≠ [] ∧
      (∀ c ∈ token, Text.isBlank c = false) ∧ read? token = some x := by
  obtain ⟨plain, joined, hplain, hjoined, hvalue⟩ := read?_eq_some_iff.1 h
  obtain ⟨hne, hblanks⟩ := no_blank_of_read? hjoined hvalue
  obtain ⟨before, after, hparts, hbefore, hafter⟩ := exists_trimSpaces plain
  rw [mapM_plain?_eq_some_iff, hparts, List.map_append, List.map_append] at hplain
  obtain ⟨rest, back, rfl, hrest, hback⟩ := List.map_eq_append_iff.1 hplain
  obtain ⟨front, token, rfl, hfront, htoken⟩ := List.map_eq_append_iff.1 hrest
  have hword := isBlank_of_map_plain htoken hblanks
  refine ⟨front, token, back, rfl,
    isBlank_of_map_plain hfront fun c hmem => isBlank_of_isSpace (hbefore c hmem),
    isBlank_of_map_plain hback fun c hmem => isBlank_of_isSpace (hafter c hmem),
    fun hnil => hne ?_, hword, ?_⟩
  · rw [hnil] at htoken
    exact List.map_eq_nil_iff.1 htoken.symm
  · rw [read?_eq_some_iff]
    refine ⟨trimSpaces plain, joined, mapM_plain?_eq_some_iff.2 htoken, ?_, hvalue⟩
    rw [trimSpaces_of_no_blank hblanks, hjoined]

/-- A numeral is one word, and this word is the same numeral. -/
theorem words_of_read? {x : Double} (h : read? text = some x) :
    ∃ token, Text.words text = [token] ∧ read? token = some x := by
  obtain ⟨front, token, back, rfl, hfront, hback, hne, htoken, hread⟩ := exists_token h
  refine ⟨token, ?_, hread⟩
  rw [Text.words_append_blanks hback, Text.words_blanks_append hfront,
    Text.words_of_no_blank hne htoken]

end Numeral

end FactRules
