import FactRules.Text.Span

/-!
# Blanks and words

The blank characters are the white space of Unicode and the four information separators U+001C to
U+001F. `words` are the maximal runs without a blank, `trim` drops the blanks at both ends, and
`afterFirstWord` is what follows the first word.
-/

namespace FactRules.Text

/-- The spans of blank characters. -/
def blankSpans : List Span :=
  [⟨0x09, 0x0d⟩, ⟨0x1c, 0x20⟩, ⟨0x85, 0x85⟩, ⟨0xa0, 0xa0⟩, ⟨0x1680, 0x1680⟩, ⟨0x2000, 0x200a⟩,
   ⟨0x2028, 0x2029⟩, ⟨0x202f, 0x202f⟩, ⟨0x205f, 0x205f⟩, ⟨0x3000, 0x3000⟩]

/-- Whether a character separates words. -/
def isBlank (c : Char) : Bool := inSpans blankSpans c

/-- The maximal runs of characters that are not blank, in order. -/
def words : List Char → List (List Char)
  | [] => []
  | c :: rest =>
    if isBlank c then words rest
    else
      match rest.head?, words rest with
      | some next, word :: others =>
        if isBlank next then [c] :: word :: others else (c :: word) :: others
      | _, others => [c] :: others

/-- Words are not empty and hold no blank. -/
theorem of_mem_words (text : List Char) :
    ∀ word ∈ words text, word ≠ [] ∧ ∀ c ∈ word, isBlank c = false := by
  fun_induction words text with grind

/-- The text without the blanks at its end. -/
def trimEnd (text : List Char) : List Char := (text.reverse.dropWhile isBlank).reverse

/-- The text without the blanks at its two ends. -/
def trim (text : List Char) : List Char := trimEnd (text.dropWhile isBlank)

/-- What follows the first word, without the blanks before it; blanks at the end stay. -/
def afterFirstWord (text : List Char) : List Char :=
  ((text.dropWhile isBlank).dropWhile fun c => !isBlank c).dropWhile isBlank

end FactRules.Text
