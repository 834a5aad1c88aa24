/-!
# Pieces of texts

A text is cut at every occurrence of one character (`pieces`), or at its double bars, taken from the
left (`alternatives`). There is always one piece more than there are cuts.
-/

namespace FactRules.Text

/-- The pieces between the occurrences of `separator`, empty ones included; there is one more piece
than there are separators. -/
def pieces (separator : Char) : List Char → List (List Char)
  | [] => [[]]
  | c :: rest =>
    if c = separator then [] :: pieces separator rest
    else
      match pieces separator rest with
      | [] => [[c]]
      | piece :: others => (c :: piece) :: others

/-- A text without the separator is one piece, so there always is one. -/
theorem pieces_ne_nil (separator : Char) (text : List Char) : pieces separator text ≠ [] := by
  fun_cases pieces separator text <;> simp

/-- There is one piece more than there are separators. -/
theorem length_pieces (separator : Char) (text : List Char) :
    (pieces separator text).length = text.count separator + 1 := by
  fun_induction pieces separator text with grind [pieces_ne_nil]

/-- Joined by the separator, the pieces are the text again. -/
theorem intercalate_pieces (separator : Char) (text : List Char) :
    [separator].intercalate (pieces separator text) = text := by
  fun_induction pieces separator text with
  | case1 => rfl
  | case2 rest ih =>
    rw [List.intercalate_cons_of_ne_nil (pieces_ne_nil _ _), ih]
    rfl
  | case3 c rest hne hnil ih => exact absurd hnil (pieces_ne_nil _ _)
  | case4 c rest hne piece others hcons ih =>
    rw [hcons] at ih
    match others with
    | [] =>
      rw [List.intercalate_singleton] at ih ⊢
      rw [ih]
    | next :: others =>
      rw [List.intercalate_cons_cons] at ih ⊢
      rw [← ih]
      rfl

/-- The pieces of a text between its double bars, taken from the left. -/
def alternatives : List Char → List (List Char)
  | [] => [[]]
  | '|' :: '|' :: rest => [] :: alternatives rest
  | c :: rest =>
    match alternatives rest with
    | [] => [[c]]
    | piece :: others => (c :: piece) :: others

/-- Every text has an alternative, if an empty one. -/
theorem alternatives_ne_nil (text : List Char) : alternatives text ≠ [] := by
  fun_cases alternatives text <;> simp

end FactRules.Text
