import FactRules.Proofs.Text.Ascii
import FactRules.Text.Pieces
import FactRules.Text.SnakeCase
import Mathlib.Data.List.Chain

/-!
# Snake case

Marking the word boundaries of a name puts underscores in and does nothing else (`Underscored`), and
it leaves a name as it is exactly if its letters are evenly cased (`marks_eq_self_iff`). A name
without capitals is evenly cased, so a snake-case form is its own snake-case form
(`snakeCase_snakeCase`).
-/

namespace FactRules.Text

variable {c : Char} {text marked name : List Char}

/-! ## Underscores are put in -/

/-- A text, and the text with underscores put in. -/
inductive Underscored : List Char → List Char → Prop where
  | nil : Underscored [] []
  | keep (c : Char) {text marked : List Char} (h : Underscored text marked) :
      Underscored (c :: text) (c :: marked)
  | mark {text marked : List Char} (h : Underscored text marked) :
      Underscored text ('_' :: marked)

/-- The text without its underscores. -/
def withoutUnderscores (text : List Char) : List Char := text.filter (· ≠ '_')

/-- No other character has the underscore as its upper case. -/
theorem toUpper_eq_underscore : c.toUpper = '_' ↔ c = '_' := by
  cases h : c.isLower with
  | true =>
    refine iff_of_false (fun heq => ?_) ?_
    · have hupper := isUpper_toUpper h
      rw [heq] at hupper
      exact absurd hupper (by decide)
    · rintro rfl
      exact absurd h (by decide)
  | false => rw [toUpper_of_not_isLower h]

/-- Underscores may be left out before or after changing to upper case. -/
theorem withoutUnderscores_map_toUpper (text : List Char) :
    withoutUnderscores (text.map Char.toUpper) = (withoutUnderscores text).map Char.toUpper := by
  rw [withoutUnderscores, List.filter_map, withoutUnderscores]
  exact congrArg _ (List.filter_congr fun c _ =>
    decide_eq_decide.2 (not_congr toUpper_eq_underscore))

namespace Underscored

/-- A text has underscores put into it in no place at all. -/
theorem refl (text : List Char) : Underscored text text := by
  induction text with
  | nil => exact .nil
  | cons c rest ih => exact .keep c ih

/-- Underscores may be put in twice. -/
theorem trans {text middle marked : List Char} (h : Underscored text middle)
    (hmarked : Underscored middle marked) : Underscored text marked := by
  induction hmarked generalizing text with
  | nil => exact h
  | keep c hmarked ih =>
    cases h with
    | keep _ h => exact .keep c (ih h)
    | mark h => exact .mark (ih h)
  | mark hmarked ih => exact .mark (ih h)

/-- Without their underscores both are the same. -/
theorem withoutUnderscores_eq (h : Underscored text marked) :
    withoutUnderscores marked = withoutUnderscores text := by
  induction h with
  | nil => rfl
  | keep c h ih =>
    rw [withoutUnderscores, withoutUnderscores, List.filter_cons, List.filter_cons,
      ← withoutUnderscores, ← withoutUnderscores, ih]
  | mark h ih => exact ih

/-- Underscores make a text longer, never shorter. -/
theorem length_le (h : Underscored text marked) : text.length ≤ marked.length := by
  induction h with
  | nil => exact Nat.le_refl 0
  | keep c h ih => exact Nat.succ_le_succ ih
  | mark h ih => exact Nat.le_succ_of_le ih

/-- If the text has not become longer, it has stayed the same. -/
theorem eq_of_length_le (h : Underscored text marked) (hlength : marked.length ≤ text.length) :
    marked = text := by
  induction h with
  | nil => rfl
  | keep c h ih => rw [ih (Nat.le_of_succ_le_succ hlength)]
  | mark h ih => exact absurd hlength (Nat.not_le.2 (Nat.lt_succ_of_le h.length_le))

/-- One underscore more makes another text of it. -/
theorem mark_ne (h : Underscored text marked) : '_' :: marked ≠ text := by
  rintro rfl
  exact absurd h.length_le (Nat.not_succ_le_self _)

/-- Underscores are ASCII characters. -/
theorem ascii (h : Underscored text marked) (htext : ∀ c ∈ text, c.toNat < 0x80) :
    ∀ c ∈ marked, c.toNat < 0x80 := by
  induction h with
  | nil => exact htext
  | keep c h ih =>
    obtain ⟨hc, hrest⟩ := List.forall_mem_cons.1 htext
    exact List.forall_mem_cons.2 ⟨hc, ih hrest⟩
  | mark h ih => exact List.forall_mem_cons.2 ⟨by decide, ih htext⟩

end Underscored

/-- The first pass puts underscores into a name, whether it is within a title or not. -/
theorem underscored_markTitles (inTitle : Bool) (name : List Char) :
    Underscored name (markTitles inTitle name) := by
  fun_induction markTitles inTitle name with
  | case1 inTitle c capital small rest htitle ih => exact .keep c ih
  | case2 inTitle c capital small rest htitle hmark ih =>
    exact .keep c (.mark (.keep capital (.keep small ih)))
  | case3 inTitle c capital small rest htitle hmark ih => exact .keep c ih
  | case4 inTitle short hshort => exact .refl short

/-- So does the second pass. -/
theorem underscored_markCapitals (name : List Char) : Underscored name (markCapitals name) := by
  fun_induction markCapitals name with
  | case1 c capital rest hmark ih => exact .keep c (.mark (.keep capital ih))
  | case2 c capital rest hmark ih => exact .keep c ih
  | case3 short hshort => exact .refl short

/-- So do both, one after the other. -/
theorem underscored_marks (name : List Char) :
    Underscored name (markCapitals (markTitles false name)) :=
  (underscored_markTitles false name).trans (underscored_markCapitals _)

/-! ## The passes step by step -/

/-- Whether a text starts with a capital and a small letter. -/
def startsTitle : List Char → Bool
  | capital :: small :: _ => capital.isUpper && small.isLower
  | _ => false

/-- Before a capital with a small letter after it comes an underscore, and the next character is
within a title. -/
theorem markTitles_of_title {capital small : Char} (hline : c ≠ '\n')
    (htitle : startsTitle (capital :: small :: text) = true) :
    markTitles false (c :: capital :: small :: text) =
      c :: '_' :: capital :: small :: markTitles true text := by
  rw [markTitles, Bool.false_and, if_neg Bool.false_ne_true, Bool.and_assoc, ← startsTitle.eq_1,
    htitle, Bool.and_true, if_pos (decide_eq_true hline)]

/-- No underscore comes before what starts no title. -/
theorem markTitles_of_not_title (h : startsTitle text = false) :
    markTitles false (c :: text) = c :: markTitles false text := by
  match text with
  | [] => rfl
  | [_] => rfl
  | capital :: small :: rest =>
    rw [markTitles, Bool.false_and, if_neg Bool.false_ne_true, Bool.and_assoc, ← startsTitle.eq_1,
      h, Bool.and_false, if_neg Bool.false_ne_true]

/-- What the first pass does with a character: it passes it, within a title or not, or it marks the
title that comes next and goes on within this one. -/
theorem markTitles_cons (inTitle : Bool) (c : Char) (text : List Char) :
    (∃ still, markTitles inTitle (c :: text) = c :: markTitles still text) ∨
      ∃ capital small rest, text = capital :: small :: rest ∧ capital.isUpper = true ∧
        markTitles inTitle (c :: text) = c :: '_' :: capital :: small :: markTitles true rest := by
  match text with
  | [] | [_] => exact .inl ⟨false, rfl⟩
  | capital :: small :: rest =>
    rw [markTitles]
    split
    · exact .inl ⟨true, rfl⟩
    · split
      · next hmark =>
        have hcapital := ((Bool.and_eq_true _ _).mp ((Bool.and_eq_true _ _).mp hmark).1).2
        exact .inr ⟨capital, small, rest, rfl, hcapital, rfl⟩
      · exact .inl ⟨false, rfl⟩

/-- Between a small letter or a digit and a capital comes an underscore. -/
theorem markCapitals_of_boundary {capital : Char}
    (h : ((c.isLower || c.isDigit) && capital.isUpper) = true) :
    markCapitals (c :: capital :: text) = c :: '_' :: capital :: markCapitals text := by
  rw [markCapitals, if_pos h]

/-- Between other characters none comes. -/
theorem markCapitals_of_no_boundary {next : Char}
    (h : ((c.isLower || c.isDigit) && next.isUpper) = false) :
    markCapitals (c :: next :: text) = c :: markCapitals (next :: text) := by
  rw [markCapitals, if_neg (Bool.eq_false_iff.1 h)]

/-- After what is neither a small letter nor a digit none comes, also at the end of the name. -/
theorem markCapitals_of_not_small (h : (c.isLower || c.isDigit) = false) :
    markCapitals (c :: text) = c :: markCapitals text := by
  match text with
  | [] => rfl
  | next :: rest => exact markCapitals_of_no_boundary (by rw [h, Bool.false_and])

/-! ## Names without inner boundaries -/

/-- Whether the letters that stand side by side have the same case: no capital comes right after a
small letter or a digit, and no small letter right after a capital, unless the capital is the first
character. -/
def EvenlyCased (name : List Char) : Prop :=
  name.IsChain (fun c next => ((c.isLower || c.isDigit) && next.isUpper) = false) ∧
    name.tail.IsChain fun c next => (c.isUpper && next.isLower) = false

instance (name : List Char) : Decidable (EvenlyCased name) :=
  inferInstanceAs (Decidable (_ ∧ _))

/-- The second pass changes nothing if no capital follows a small letter or a digit. -/
theorem markCapitals_eq_self_iff : ∀ name : List Char,
    markCapitals name = name ↔
      name.IsChain fun c next => ((c.isLower || c.isDigit) && next.isUpper) = false
  | [] => iff_of_true rfl .nil
  | [c] => iff_of_true rfl (.singleton c)
  | c :: next :: rest => by
    rw [List.isChain_cons_cons]
    cases hboundary : (c.isLower || c.isDigit) && next.isUpper with
    | true =>
      rw [markCapitals_of_boundary hboundary, List.cons_inj_right]
      have hmarked := Underscored.keep next (underscored_markCapitals rest)
      exact iff_of_false hmarked.mark_ne fun h => Bool.false_ne_true h.1.symm
    | false =>
      rw [markCapitals_of_no_boundary hboundary, List.cons_inj_right,
        markCapitals_eq_self_iff (next :: rest)]
      exact (and_iff_right rfl).symm

/-- The first pass changes nothing if no title starts behind the first character. Line breaks are
left out, as the pass puts nothing after them. -/
theorem markTitles_eq_self_iff : ∀ {name : List Char}, '\n' ∉ name →
    (markTitles false name = name ↔
      name.tail.IsChain fun c next => (c.isUpper && next.isLower) = false)
  | [], _ => iff_of_true rfl .nil
  | [_], _ => iff_of_true rfl .nil
  | [_, capital], _ => iff_of_true rfl (.singleton capital)
  | c :: capital :: small :: rest, hline => by
    obtain ⟨hc, hrest⟩ := not_or.1 (mt List.mem_cons.2 hline)
    rw [List.tail_cons, List.isChain_cons_cons, ← startsTitle.eq_1 capital small rest]
    cases htitle : startsTitle (capital :: small :: rest) with
    | true =>
      rw [markTitles_of_title (Ne.symm hc) htitle, List.cons_inj_right]
      have hmarked := Underscored.keep capital (.keep small (underscored_markTitles true rest))
      exact iff_of_false hmarked.mark_ne fun h => Bool.false_ne_true h.1.symm
    | false =>
      rw [markTitles_of_not_title htitle, List.cons_inj_right, markTitles_eq_self_iff hrest,
        List.tail_cons]
      exact (and_iff_right rfl).symm

/-- The passes mark nothing in a name exactly if it is evenly cased. -/
theorem marks_eq_self_iff (hline : '\n' ∉ name) :
    markCapitals (markTitles false name) = name ↔ EvenlyCased name := by
  constructor
  · intro h
    have htitles : markTitles false name = name := by
      refine (underscored_markTitles false name).eq_of_length_le ?_
      calc (markTitles false name).length
        _ ≤ (markCapitals (markTitles false name)).length :=
          (underscored_markCapitals _).length_le
        _ = name.length := by rw [h]
    rw [htitles] at h
    exact ⟨(markCapitals_eq_self_iff name).1 h, (markTitles_eq_self_iff hline).1 htitles⟩
  · rintro ⟨hcapitals, htitles⟩
    rw [(markTitles_eq_self_iff hline).2 htitles, (markCapitals_eq_self_iff name).2 hcapitals]

/-- The first pass marks nothing where no capital comes after the first character. -/
theorem markTitles_eq_self (inTitle : Bool) (h : ∀ c ∈ text.tail, c.isUpper = false) :
    markTitles inTitle text = text := by
  induction text generalizing inTitle with
  | nil => rfl
  | cons c text ih =>
    rcases markTitles_cons inTitle c text with
      ⟨still, hpassed⟩ | ⟨capital, small, rest, rfl, hcapital, -⟩
    · rw [hpassed, ih still fun d hd => h d (List.mem_of_mem_tail hd)]
    · exact absurd hcapital (Bool.eq_false_iff.1 (h capital List.mem_cons_self))

/-- The second pass marks nothing there either. -/
theorem markCapitals_eq_self : ∀ {text : List Char}, (∀ c ∈ text.tail, c.isUpper = false) →
    markCapitals text = text
  | [], _ | [_], _ => rfl
  | c :: next :: rest, h => by
    obtain ⟨hnext, hothers⟩ := List.forall_mem_cons.1 h
    have hrest : ∀ d ∈ (next :: rest).tail, d.isUpper = false := hothers
    rw [markCapitals_of_no_boundary (by rw [hnext, Bool.and_false]),
      markCapitals_eq_self hrest]

/-! ## Snake-case forms -/

/-- The snake-case form of an ASCII name. -/
theorem snakeCase_of_ascii (h : ∀ c ∈ name, c.toNat < 0x80) :
    snakeCase name = (markCapitals (markTitles false name)).map Char.toLower :=
  lower_of_ascii ((underscored_marks name).ascii h)

/-- A text without capitals is in lower case. -/
theorem map_toLower_of_no_capital (h : ∀ c ∈ text, c.isUpper = false) :
    text.map Char.toLower = text :=
  (List.map_congr_left fun c hc => toLower_of_not_isUpper (h c hc)).trans (List.map_id text)

/-- The snake-case form of an ASCII name is its own snake-case form. -/
theorem snakeCase_snakeCase (h : ∀ c ∈ name, c.toNat < 0x80) :
    snakeCase (snakeCase name) = snakeCase name := by
  have hsnake := snakeCase_of_ascii h
  have hmarked := (underscored_marks name).ascii h
  have hascii : ∀ c ∈ snakeCase name, c.toNat < 0x80 := hsnake ▸ ascii_map_toLower hmarked
  have hcapital : ∀ c ∈ snakeCase name, c.isUpper = false :=
    hsnake ▸ List.forall_mem_map.2 fun c _ => not_isUpper_toLower c
  have htail : ∀ c ∈ (snakeCase name).tail, c.isUpper = false := fun c hc =>
    hcapital c (List.mem_of_mem_tail hc)
  rw [snakeCase_of_ascii hascii, markTitles_eq_self false htail, markCapitals_eq_self htail,
    map_toLower_of_no_capital hcapital]

end FactRules.Text
