import FactRules.Proofs.Reading.Success
import FactRules.Reading.Criterion
import Mathlib.Algebra.BigOperators.Group.List.Basic
import Mathlib.Data.List.Forall2

/-!
# Groups of alternatives

A text of a rule's facts with a double bar is a group of alternatives (`Text.HasBars`), and a rule
has one variant for each choice from its groups. `Criteria.expand_ok` says what the variants are:
the texts are taken in the order of `Criteria.groupsFirst`, each stands for a list of criterions
(`Criterion.alternatives`), and the variants are the choices from these lists. A text that is no
group stands for one criterion, so it needs no case of its own.

`choices_filter` and `length_choices` count the choices that pass a test.
-/

namespace FactRules

/-! ## Double bars -/

namespace Text

/-- Whether a text has a double bar. -/
def HasBars (text : List Char) : Prop := ['|', '|'] <:+: text

instance (text : List Char) : Decidable (HasBars text) := inferInstanceAs (Decidable (_ <:+: _))

/-- A text falls into several pieces exactly if it has a double bar. -/
theorem one_lt_length_alternatives_iff (text : List Char) :
    1 < (alternatives text).length ↔ HasBars text := by
  fun_induction alternatives text with
  | case1 => decide
  | case2 rest =>
    have hpos := List.length_pos_iff.2 (alternatives_ne_nil rest)
    refine ⟨fun _ => (List.prefix_append ['|', '|'] rest).isInfix, fun _ => ?_⟩
    rw [List.length_cons]
    omega
  | case3 c rest _ hnil => exact absurd hnil (alternatives_ne_nil rest)
  | case4 c rest hbars piece others hrest ih =>
    rw [hrest] at ih
    rw [List.length_cons, ← List.length_cons, ih, HasBars, HasBars, List.infix_cons_iff]
    refine (or_iff_right fun hprefix => ?_).symm
    obtain ⟨tail, htail⟩ := hprefix
    exact hbars tail (List.cons.inj htail).1.symm (List.cons.inj htail).2.symm

/-- A text without double bars is its only piece. -/
theorem alternatives_of_not_hasBars {text : List Char} (h : ¬ HasBars text) :
    alternatives text = [text] := by
  fun_induction alternatives text with
  | case1 => rfl
  | case2 rest => exact absurd (List.prefix_append ['|', '|'] rest).isInfix h
  | case3 c rest _ hnil => exact absurd hnil (alternatives_ne_nil rest)
  | case4 c rest _ piece others hrest ih =>
    have hbars : ¬ HasBars rest := fun hinfix => h (List.infix_cons hinfix)
    rw [ih hbars] at hrest
    cases hrest
    rfl

end Text

/-! ## Choices -/

namespace Criteria

section
variable {α : Type}

/-- A choice takes one member of each list. -/
theorem forall₂_of_mem_choices {groups : List (List α)} {chosen : List α}
    (h : chosen ∈ choices groups) : List.Forall₂ (· ∈ ·) chosen groups := by
  induction groups generalizing chosen with
  | nil =>
    cases List.mem_singleton.1 h
    exact .nil
  | cons group others ih =>
    obtain ⟨first, hfirst, hchosen⟩ := List.mem_flatMap.1 h
    obtain ⟨rest, hrest, rfl⟩ := List.mem_map.1 hchosen
    exact .cons hfirst (ih hrest)

/-- There is a choice unless one of the lists has no member. -/
theorem choices_eq_nil_iff {groups : List (List α)} : choices groups = [] ↔ [] ∈ groups := by
  induction groups with
  | nil => exact ⟨nofun, nofun⟩
  | cons group others ih =>
    rw [choices, List.flatMap_eq_nil_iff, List.mem_cons]
    constructor
    · intro h
      cases group with
      | nil => exact .inl rfl
      | cons first rest =>
        exact .inr (ih.1 (List.map_eq_nil_iff.1 (h first (List.mem_cons_self ..))))
    · rintro (rfl | h)
      · exact nofun
      · intro first _
        rw [ih.2 h]
        rfl

/-- There are as many choices as the product of the lengths. -/
theorem length_choices (groups : List (List α)) :
    (choices groups).length = (groups.map List.length).prod := by
  induction groups with
  | nil => rfl
  | cons group others ih =>
    rw [choices, List.length_flatMap, List.map_cons, List.prod_cons, ← ih]
    simp only [List.length_map, List.map_const', List.sum_replicate_nat]

/-- The choices all of whose members pass a test are the choices from the members that pass it. -/
theorem choices_filter (p : α → Bool) (groups : List (List α)) :
    (choices groups).filter (·.all p) = choices (groups.map (·.filter p)) := by
  induction groups with
  | nil => rfl
  | cons group others ih =>
    have hcons : ∀ first, ((choices others).map (first :: ·)).filter (·.all p) =
        if p first then (choices (others.map (·.filter p))).map (first :: ·) else [] := by
      intro first
      rw [List.filter_map, ← ih]
      cases hfirst : p first with
      | true => simp [Function.comp_def, hfirst]
      | false => simp [Function.comp_def, hfirst]
    rw [choices, List.filter_flatMap, List.map_cons, choices]
    simp only [hcons]
    induction group with
    | nil => rfl
    | cons first rest ihgroup =>
      rw [List.flatMap_cons, ihgroup]
      cases hfirst : p first with
      | true => rw [List.filter_cons_of_pos hfirst, List.flatMap_cons, if_pos rfl]
      | false => rw [List.filter_cons_of_neg (by simp [hfirst]), if_neg Bool.false_ne_true]; rfl

/-- Choices from a list of lists are choices from its front followed by choices from its back. -/
theorem choices_append (front back : List (List α)) :
    choices (front ++ back) =
      (choices front).flatMap fun chosen => (choices back).map (chosen ++ ·) := by
  induction front with
  | nil => simp [choices]
  | cons group others ih =>
    rw [List.cons_append, choices, choices, ih, List.flatMap_assoc]
    refine List.flatMap_congr fun chosen _ => ?_
    rw [List.map_flatMap, List.flatMap_map]
    refine List.flatMap_congr fun rest _ => ?_
    rw [List.map_map]
    rfl

/-- Lists with one member each leave one choice. -/
theorem choices_of_length_one {groups : List (List α)} (h : ∀ group ∈ groups, group.length = 1) :
    choices groups = [groups.flatten] := by
  induction groups with
  | nil => rfl
  | cons group others ih =>
    obtain ⟨a, rfl⟩ := List.length_eq_one_iff.1 (h group (List.mem_cons_self ..))
    rw [choices, ih fun group hgroup => h group (List.mem_cons_of_mem _ hgroup)]
    rfl

end

end Criteria

/-! ## The variants of a list of texts -/

/-- The criterions that the alternatives of a text stand for. -/
def Criterion.alternatives (text : String) : List Criterion :=
  (Text.alternatives text.toList).filterMap fun piece => (Criterion.ofText piece).toOption

namespace Criteria

/-- The texts that are groups, and then those that are not. -/
def groupsFirst (facts : List String) : List String :=
  facts.filter (Text.HasBars ·.toList) ++ facts.filter (¬ Text.HasBars ·.toList)

/-- Putting groups first only moves facts. -/
theorem groupsFirst_perm (facts : List String) : (groupsFirst facts).Perm facts := by
  have hperm :=
    List.filter_append_perm (fun text : String => decide (Text.HasBars text.toList)) facts
  simpa [groupsFirst] using hperm

/-- A fact is a group if there are bars in its text. -/
theorem isGroup_str (text : String) : isGroup (.str text) = decide (Text.HasBars text.toList) := by
  rw [isGroup, decide_eq_decide]
  exact Text.one_lt_length_alternatives_iff text.toList

/-- Where a text is read, each of its pieces stands for a criterion. -/
theorem alternativesOf_str_ok {text : String} {read : List Criterion}
    (h : alternativesOf (.str text) = .ok read) :
    read = Criterion.alternatives text ∧
      (Criterion.alternatives text).length = (Text.alternatives text.toList).length := by
  have hread : Criterion.alternatives text = read := filterMap_of_mapM_eq_ok h
  refine ⟨hread.symm, ?_⟩
  have hlength := congrArg List.length (mapM_eq_ok_iff.1 h)
  rw [List.length_map, List.length_map] at hlength
  rw [hread, hlength]

/-- A text without double bars stands for one criterion. -/
theorem length_alternatives_eq_one {text : String} (hbars : ¬ Text.HasBars text.toList)
    (hread : (Criterion.alternatives text).length = (Text.alternatives text.toList).length) :
    (Criterion.alternatives text).length = 1 := by
  have hpos := List.length_pos_iff.2 (Text.alternatives_ne_nil text.toList)
  rw [← Text.one_lt_length_alternatives_iff] at hbars
  omega

/-- The texts without double bars leave one choice, which stands at the end of every variant. -/
theorem choices_groupsFirst {facts : List String} (hpieces : ∀ text ∈ facts,
    (Criterion.alternatives text).length = (Text.alternatives text.toList).length) :
    choices ((groupsFirst facts).map Criterion.alternatives) =
      (choices ((facts.filter (Text.HasBars ·.toList)).map Criterion.alternatives)).map
        (· ++ (facts.filter (¬ Text.HasBars ·.toList)).flatMap Criterion.alternatives) := by
  have hplain : choices ((facts.filter (¬ Text.HasBars ·.toList)).map Criterion.alternatives) =
      [(facts.filter (¬ Text.HasBars ·.toList)).flatMap Criterion.alternatives] := by
    rw [List.flatMap_def]
    refine choices_of_length_one fun group hgroup => ?_
    obtain ⟨text, htext, rfl⟩ := List.mem_map.1 hgroup
    obtain ⟨hmem, hbars⟩ := List.mem_filter.1 htext
    exact length_alternatives_eq_one (of_decide_eq_true hbars) (hpieces text hmem)
  rw [groupsFirst, List.map_append, choices_append, hplain]
  simp only [List.map_cons, List.map_nil]
  rw [← List.map_eq_flatMap]

/-- Where the facts of a rule are read, each piece of each text stands for a criterion, and the
variants are the choices from the texts, the groups in front. -/
theorem expand_ok {concept : Concept} {facts : List String} {variants : List Criteria}
    (h : expand concept (facts.map .str) = .ok variants) :
    (∀ text ∈ facts,
        (Criterion.alternatives text).length = (Text.alternatives text.toList).length) ∧
      variants = (choices ((groupsFirst facts).map Criterion.alternatives)).map (⟨concept, ·⟩) := by
  rw [expand] at h
  obtain ⟨read, hread, hvariants⟩ := bind_eq_ok.1 h
  rw [List.mapM_map] at hread
  have hpieces : ∀ text ∈ facts,
      (Criterion.alternatives text).length = (Text.alternatives text.toList).length := by
    intro text htext
    obtain ⟨_, hstep⟩ := exists_of_mapM_eq_ok hread htext
    obtain ⟨_, halternatives, _⟩ := map_eq_ok.1 hstep
    exact (alternativesOf_str_ok halternatives).2
  have hall : read = facts.map fun text =>
      (decide (Text.HasBars text.toList), Criterion.alternatives text) := by
    refine eq_map_of_mapM_eq_ok (fun text b hstep => ?_) hread
    obtain ⟨alternatives, halternatives, rfl⟩ := map_eq_ok.1 hstep
    rw [(alternativesOf_str_ok halternatives).1, isGroup_str]
  have hgroups : (read.filter (·.1)).map (·.2) =
      (facts.filter (Text.HasBars ·.toList)).map Criterion.alternatives := by
    rw [hall, List.filter_map, List.map_map]
    rfl
  have hrequired : (read.filter (!·.1)).flatMap (·.2) =
      (facts.filter (¬ Text.HasBars ·.toList)).flatMap Criterion.alternatives := by
    rw [hall, List.filter_map, List.flatMap_map]
    simp [Function.comp_def]
  refine ⟨hpieces, ?_⟩
  rw [← Except.ok.inj hvariants, hgroups, hrequired, choices_groupsFirst hpieces, List.map_map]
  rfl

end Criteria

end FactRules
