import FactRules.Proofs.Reading.Grammar
import Mathlib.Data.List.GetD

/-!
# The variants of a rule

The facts of a rule expand into one variant for each choice from its groups. `Criteria.expand_spec`
says how many these are, what each of them is, and how many of them hold: the choices are numbered,
and the digits of a number, the first group counting most, tell which alternatives are chosen
(`Criteria.digit`).

The number of the variants that hold is a product over the groups. So it matters for the draw among
the rules that match how many alternatives of a group hold, and some variant holds exactly if the
facts do as they were written.
-/

namespace FactRules

/-! ## Choices by their numbers -/

/-- Lists of one length that are joined are found by quotient and remainder. -/
theorem getElem?_flatMap_of_length {α β : Type} {f : α → List β} {width : Nat}
    (hwidth : ∀ a, (f a).length = width) (items : List α) (number : Nat) :
    (items.flatMap f)[number]? =
      items[number / width]?.bind fun a => (f a)[number % width]? := by
  induction items generalizing number with
  | nil => simp
  | cons first rest ih =>
    rw [List.flatMap_cons, List.getElem?_append, hwidth]
    by_cases hlt : number < width
    · simp [hlt, Nat.div_eq_of_lt hlt, Nat.mod_eq_of_lt hlt]
    · have hle : width ≤ number := Nat.le_of_not_lt hlt
      rw [if_neg hlt, ih]
      rcases Nat.eq_zero_or_pos width with rfl | hpos
      · have hempty : ∀ a, f a = [] := fun a => List.eq_nil_of_length_eq_zero (hwidth a)
        simp [hempty]
      · rw [← Nat.mod_eq_sub_mod hle, Nat.div_eq_sub_div hpos hle, List.getElem?_cons_succ]

namespace Criteria

/-- The digit of a number at a place, where each place has a width of its own and the first place
counts most. -/
def digit (widths : List Nat) (number place : Nat) : Nat :=
  number / (widths.drop (place + 1)).prod % widths.getD place 1

/-- The digits after the first are those of the remainder. -/
theorem digit_cons_succ (width : Nat) (widths : List Nat) (number place : Nat) :
    digit (width :: widths) number (place + 1) = digit widths (number % widths.prod) place := by
  rw [digit, digit, List.drop_succ_cons, List.getD_cons_succ]
  by_cases hplace : place < widths.length
  · have hsplit : widths.prod =
        (widths.drop (place + 1)).prod * (widths.getD place 1 * (widths.take place).prod) := by
      rw [← List.prod_take_mul_prod_drop widths place, ← List.getElem_cons_drop hplace,
        List.prod_cons, List.getD_eq_getElem _ _ hplace, ← Nat.mul_assoc, Nat.mul_comm,
        Nat.mul_comm widths[place]]
    rw [hsplit, Nat.mod_mul_right_div_self, Nat.mod_mod_of_dvd _ (Nat.dvd_mul_right ..)]
  · have hone : widths.getD place 1 = 1 :=
      List.getD_eq_default _ _ (Nat.le_of_not_lt hplace)
    rw [hone, Nat.mod_one, Nat.mod_one]

/-- The choice with a number takes from each list the member that the digit tells. -/
theorem getElem?_choices {α : Type} {groups : List (List α)} {number : Nat} {chosen : List α}
    (h : (choices groups)[number]? = some chosen) (place : Nat) :
    chosen[place]? =
      groups[place]?.bind (·[digit (groups.map List.length) number place]?) := by
  induction groups generalizing number chosen place with
  | nil =>
    obtain ⟨_, rfl⟩ := List.getElem?_eq_some_iff.1 h
    simp [choices]
  | cons group others ih =>
    have hwidth : ∀ first : α, ((choices others).map (first :: ·)).length =
        (others.map List.length).prod := fun first => by rw [List.length_map, length_choices]
    rw [choices, getElem?_flatMap_of_length hwidth] at h
    obtain ⟨first, hfirst, hothers⟩ := Option.bind_eq_some_iff.1 h
    rw [List.getElem?_map] at hothers
    obtain ⟨rest, hrest, rfl⟩ := Option.map_eq_some_iff.1 hothers
    cases place with
    | zero =>
      obtain ⟨hlt, _⟩ := List.getElem?_eq_some_iff.1 hfirst
      simp [digit, Nat.mod_eq_of_lt hlt, hfirst]
    | succ place =>
      rw [List.getElem?_cons_succ, List.getElem?_cons_succ, List.map_cons, digit_cons_succ]
      exact ih hrest place

/-! ## Variants that hold -/

/-- Of the choices with the same criterions at their ends as many hold as the product of the numbers
of alternatives that do, if those at the ends do. -/
theorem countP_choices_append (p : Criterion → Bool) (groups : List (List Criterion))
    (required : List Criterion) :
    (choices groups).countP (fun chosen => (chosen ++ required).all p) =
      if required.all p then (groups.map (·.countP p)).prod else 0 := by
  simp only [List.all_append]
  split
  · next hrequired =>
    have hlengths : (fun group : List Criterion => (group.filter p).length) = (·.countP p) :=
      funext fun group => List.countP_eq_length_filter.symm
    simp only [hrequired, Bool.and_true]
    rw [List.countP_eq_length_filter, choices_filter, length_choices, List.map_map,
      Function.comp_def, hlengths]
  · next hrequired =>
    simp [hrequired]

/-- Some choice from the groups of some texts passes a test exactly if each text has an alternative
that does. -/
theorem exists_choice_iff (p : Criterion → Bool) (facts : List String) :
    (∃ chosen ∈ choices ((groupsFirst facts).map Criterion.alternatives), chosen.all p) ↔
      ∀ text ∈ facts, ∃ criterion ∈ Criterion.alternatives text, p criterion := by
  have hsome : (∃ chosen ∈ choices ((groupsFirst facts).map Criterion.alternatives),
      chosen.all p) ↔
        choices (((groupsFirst facts).map Criterion.alternatives).map (·.filter p)) ≠ [] := by
    rw [← choices_filter, Ne, List.filter_eq_nil_iff]
    push Not
    rfl
  rw [hsome, Ne, choices_eq_nil_iff, List.map_map, List.mem_map]
  push Not
  constructor
  · intro h text htext
    obtain ⟨criterion, hmem⟩ := List.exists_mem_of_ne_nil _
      (h text ((groupsFirst_perm facts).mem_iff.2 htext))
    exact ⟨criterion, List.mem_filter.1 hmem⟩
  · intro h text htext hnone
    obtain ⟨criterion, hmem, hp⟩ := h text ((groupsFirst_perm facts).mem_iff.1 htext)
    exact List.filter_eq_nil_iff.1 hnone criterion hmem hp

/-- What the facts of a rule expand into, if each alternative of each text is read as a criterion.
There are as many variants as the product of the sizes of the groups. The variant with a number
chooses from each group the alternative that the digit of the number tells, the first group counting
most, and ends with the criterions of the texts that are no groups; so it has one criterion for each
text. On every chain of stores the number of variants that hold is the product of the numbers of
alternatives that do, if all texts that are no groups hold, and zero otherwise. -/
theorem expand_spec (concept : Concept) (facts : List String)
    (h : ∀ text ∈ facts, IsCriterionGroup text) :
    let grouped := facts.filter (Text.HasBars ·.toList)
    let groups := grouped.map Criterion.alternatives
    let required := (facts.filter (¬ Text.HasBars ·.toList)).flatMap Criterion.alternatives
    let widths := grouped.map fun text => (Text.alternatives text.toList).length
    (∀ text ∈ facts, (Text.alternatives text.toList).map Criterion.ofText =
        (Criterion.alternatives text).map .ok) ∧
      ∃ variants, expand concept (facts.map .str) = .ok variants ∧
        variants.length = widths.prod ∧
        (∀ number variant, variants[number]? = some variant →
          variant.concept = concept ∧ variant.specificity = facts.length ∧
            ∃ chosen, variant.predicates = chosen ++ required ∧ chosen.length = groups.length ∧
              ∀ place, chosen[place]? = groups[place]?.bind (·[digit widths number place]?)) ∧
        (∀ chain, variants.countP (·.holds chain) =
          if required.all (·.holds chain) then
            (groups.map fun group => group.countP (·.holds chain)).prod
          else 0) ∧
        ∀ chain, (∃ variant ∈ variants, variant.holds chain) ↔
          ∀ text ∈ facts, ∃ criterion ∈ Criterion.alternatives text, criterion.holds chain := by
  intro grouped groups required widths
  obtain ⟨variants, hexpand⟩ := (succeeds_expand concept facts).2 h
  obtain ⟨hpieces, hvariants⟩ := expand_ok hexpand
  have hwidths : groups.map List.length = widths := by
    rw [List.map_map]
    refine List.map_congr_left fun text htext => ?_
    exact hpieces text (List.mem_filter.1 htext).1
  have hchoices : variants = (choices groups).map fun chosen => ⟨concept, chosen ++ required⟩ := by
    rw [hvariants, choices_groupsFirst hpieces, List.map_map]
    rfl
  refine ⟨fun text htext => map_eq_map_ok (h text htext), variants, hexpand, ?length, ?each, ?count,
    ?some⟩
  case length =>
    rw [hchoices, List.length_map, length_choices, hwidths]
  case each =>
    intro number variant hvariant
    have hspecific : variant.specificity = facts.length := by
      obtain ⟨chosen, hchosen, rfl⟩ :=
        List.mem_map.1 (hvariants ▸ List.mem_of_getElem? hvariant)
      rw [specificity, (forall₂_of_mem_choices hchosen).length_eq, List.length_map,
        (groupsFirst_perm facts).length_eq]
    rw [hchoices, List.getElem?_map] at hvariant
    obtain ⟨chosen, hchosen, rfl⟩ := Option.map_eq_some_iff.1 hvariant
    refine ⟨rfl, hspecific, chosen, rfl, ?_, fun place => ?_⟩
    · exact (forall₂_of_mem_choices (List.mem_of_getElem? hchosen)).length_eq
    · rw [getElem?_choices hchosen, hwidths]
  case count =>
    intro chain
    rw [hchoices, List.countP_map]
    exact countP_choices_append (·.holds chain) groups required
  case some =>
    intro chain
    rw [← exists_choice_iff, hvariants]
    simp [holds]

end Criteria

/-- A hunter who is hungry or bored, is awake, and has seen prey of one of three kinds. -/
def huntFacts : List String := ["hungry || bored", "asleep !", "mouse || bird > 0.5 || fish"]

/-- There are six variants. The fifth chooses the second alternative of both groups, and where only
boredom, a mouse and a fish are known, two of them hold. -/
theorem expand_huntFacts :
    (∀ text ∈ huntFacts, IsCriterionGroup text) ∧
      ∃ variants, Criteria.expand .thinkIdle (huntFacts.map .str) = .ok variants ∧
        variants.length = 6 ∧
        (∀ variant, variants[4]? = some variant →
          variant.specificity = 3 ∧ variant.predicates[1]?.map (·.key) = some "bird") ∧
        variants.countP (·.holds [.ofList [("bored", .ofInt 1), ("mouse", .ofInt 1),
          ("fish", .ofInt 1)]]) = 2 := by
  have hread : ∀ text ∈ huntFacts, IsCriterionGroup text := by decide +kernel
  obtain ⟨_, variants, hexpand, hlength, heach, hcount, _⟩ :=
    Criteria.expand_spec .thinkIdle huntFacts hread
  refine ⟨hread, variants, hexpand, ?_, fun variant hvariant => ?_, ?_⟩
  · rw [hlength]
    decide +kernel
  · obtain ⟨_, hspecific, chosen, hpredicates, hchosen, hdigits⟩ := heach 4 variant hvariant
    refine ⟨hspecific, ?_⟩
    have hlt : 1 < chosen.length := by
      rw [hchosen]
      decide +kernel
    rw [hpredicates, List.getElem?_append_left hlt, hdigits]
    decide +kernel
  · rw [hcount]
    decide +kernel

end FactRules
