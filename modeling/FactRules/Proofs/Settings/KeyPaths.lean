import FactRules.Proofs.Settings.DeepOverride
import Mathlib.Data.List.TakeWhile

/-!
# Paths of keys

A path of keys leads from a table to a value in it (`Value.at?`). The paths of a table are listed
depth first, a key before the keys under it (`Value.paths`). `Overlay.before` is what an override
holds under the keys that come before a path: it has just these paths (`Overlay.pathsOf_before`),
and under them what the override has (`Overlay.at?_before`), but for the tables on the way to the
path, of which there are parts only.

Under an override that fits a value, a path leads to what it leads to in both, one under the other
(`Overlay.Fits.at?_deep`).
-/

namespace FactRules

/-- Up to an item that is in a list, and on from there. -/
theorem takeWhile_ne_append {α : Type} [DecidableEq α] {item : α} {items : List α}
    (h : item ∈ items) : ∃ back, items = items.takeWhile (· ≠ item) ++ item :: back ∧
      ∀ more, (items ++ more).takeWhile (· ≠ item) = items.takeWhile (· ≠ item) := by
  obtain ⟨front, back, rfl, hfront⟩ := List.eq_append_cons_of_mem h
  have hpass (rest : List α) : (front ++ item :: rest).takeWhile (· ≠ item) = front := by
    have hne : ∀ other ∈ front, decide (other ≠ item) = true := by
      rintro other hother
      exact decide_eq_true fun heq => hfront (heq ▸ hother)
    rw [List.takeWhile_append_of_pos hne, List.takeWhile_cons_of_neg (by simp), List.append_nil]
  refine ⟨back, by rw [hpass], fun more => ?_⟩
  rw [List.append_assoc, List.cons_append, hpass, hpass]

/-! ## What a path leads to -/

namespace Value

/-- The value under a path: each key is looked up in the table that the keys before it lead to. -/
def at? : List String → Value → Option Value
  | [], value => some value
  | key :: path, .table entries => (Entries.get? key entries).bind (at? path)
  | _ :: _, _ => none

theorem at?_cons (key : String) (path : List String) (entries : List (String × Value)) :
    (table entries).at? (key :: path) = (Entries.get? key entries).bind (at? path) := rfl

/-- No path leads into a value that is no table. -/
theorem at?_cons_of_leaf {value : Value} (h : value.kind ≠ "dict") (key : String)
    (path : List String) : value.at? (key :: path) = none := by
  cases value with
  | table entries => exact absurd rfl h
  | null | bool | int | float | str | date | time | dateTime | list => rfl

/-- A path that goes on leads into a table. -/
theorem exists_table_of_at? {value found : Value} {path : List String} (hpath : path ≠ [])
    (h : value.at? path = some found) : ∃ entries, value = .table entries := by
  obtain ⟨key, rest, rfl⟩ := List.exists_cons_of_ne_nil hpath
  by_cases hkind : value.kind = "dict"
  · exact kind_eq_dict_iff.1 hkind
  · rw [at?_cons_of_leaf hkind] at h
    cases h

mutual

/-- The paths that lead into a value, depth first: a key comes before the keys under it, and these
come before the next key. -/
def paths : Value → List (List String)
  | table entries => pathsOf entries
  | _ => []

@[inherit_doc paths]
def pathsOf : List (String × Value) → List (List String)
  | [] => []
  | (key, value) :: rest => [key] :: (paths value).map (key :: ·) ++ pathsOf rest

end

/-- No path leads into a value that is no table. -/
theorem paths_of_leaf {value : Value} (h : value.kind ≠ "dict") : value.paths = [] := by
  cases value with
  | table entries => exact absurd rfl h
  | null | bool | int | float | str | date | time | dateTime | list => rw [paths]; nofun

/-- The paths into two parts of a table are those into the first, then those into the second. -/
theorem pathsOf_append (front back : List (String × Value)) :
    pathsOf (front ++ back) = pathsOf front ++ pathsOf back := by
  induction front with
  | nil => rfl
  | cons entry rest ih =>
    rw [List.cons_append, pathsOf, pathsOf, ih, List.append_assoc]

/-- A path is one key, or goes on under it. -/
theorem mem_pathsOf_iff {path : List String} {entries : List (String × Value)} :
    path ∈ pathsOf entries ↔
      ∃ key rest value, path = key :: rest ∧ (key, value) ∈ entries ∧
        (rest = [] ∨ rest ∈ value.paths) := by
  induction entries with
  | nil => simp [pathsOf]
  | cons entry others ih =>
    obtain ⟨key, value⟩ := entry
    rw [pathsOf, List.mem_append, List.mem_cons, List.mem_map, ih]
    constructor
    · rintro ((rfl | ⟨rest, hrest, rfl⟩) | ⟨other, rest, found, rfl, hmem, hrest⟩)
      · exact ⟨key, [], value, rfl, List.mem_cons_self .., .inl rfl⟩
      · exact ⟨key, rest, value, rfl, List.mem_cons_self .., .inr hrest⟩
      · exact ⟨other, rest, found, rfl, List.mem_cons_of_mem _ hmem, hrest⟩
    · rintro ⟨other, rest, found, rfl, hmem, hrest⟩
      rcases List.mem_cons.1 hmem with heq | hmem
      · cases heq
        rcases hrest with rfl | hrest
        · exact .inl (.inl rfl)
        · exact .inl (.inr ⟨rest, hrest, rfl⟩)
      · exact .inr ⟨other, rest, found, rfl, hmem, hrest⟩

/-- The paths of a table lead to all that it holds. -/
theorem mem_paths_iff {value : Value} (h : value.HasDistinctKeys) {path : List String} :
    path ∈ value.paths ↔ path ≠ [] ∧ (value.at? path).isSome := by
  induction path generalizing value with
  | nil =>
    refine ⟨fun hmem => ?_, fun hne => absurd rfl hne.1⟩
    cases value with
    | table entries =>
      obtain ⟨key, rest, found, hnil, _⟩ := mem_pathsOf_iff.1 hmem
      cases hnil
    | null | bool | int | float | str | date | time | dateTime | list =>
      rw [paths_of_leaf (by simp [kind])] at hmem
      cases hmem
  | cons key rest ih =>
    cases h with
    | leaf hkind => simp [paths_of_leaf hkind, at?_cons_of_leaf hkind]
    | @table entries nodup inner =>
      rw [paths, mem_pathsOf_iff, at?_cons]
      constructor
      · rintro ⟨_, _, found, ⟨⟩, hmem, hrest⟩
        rw [(Entries.get?_eq_some_iff nodup).2 hmem, Option.bind_some]
        refine ⟨List.cons_ne_nil _ _, ?_⟩
        rcases hrest with rfl | hrest
        · rfl
        · exact ((ih (inner _ hmem)).1 hrest).2
      · rintro ⟨_, hsome⟩
        obtain ⟨found, hfound⟩ := Option.isSome_iff_exists.1 hsome
        obtain ⟨value, hget, hat⟩ := Option.bind_eq_some_iff.1 hfound
        have hmem := (Entries.get?_eq_some_iff nodup).1 hget
        refine ⟨key, rest, value, rfl, hmem, ?_⟩
        by_cases hnil : rest = []
        · exact .inl hnil
        · exact .inr ((ih (inner _ hmem)).2 ⟨hnil, Option.isSome_iff_exists.2 ⟨found, hat⟩⟩)

end Value

namespace Entries

variable {ν : Type} {key : String} {value : ν} {entries : List (String × ν)}

/-- The entries before a key do not have it. -/
theorem not_mem_takeWhile (key : String) (entries : List (String × ν)) :
    key ∉ (entries.takeWhile (·.1 ≠ key)).map Prod.fst := by
  intro hmem
  obtain ⟨entry, hentry, heq⟩ := List.mem_map.1 hmem
  have hne := List.mem_takeWhile_imp hentry
  exact of_decide_eq_true hne heq

/-- A table is what comes before a key, the key, and what comes after it. -/
theorem exists_eq_append (h : get? key entries = some value) :
    ∃ back, entries = entries.takeWhile (·.1 ≠ key) ++ (key, value) :: back := by
  induction entries with
  | nil => cases h
  | cons entry rest ih =>
    obtain ⟨other, found⟩ := entry
    rw [get?] at h
    split at h
    · next heq =>
      subst heq
      cases h
      exact ⟨rest, by rw [List.takeWhile_cons_of_neg (by simp), List.nil_append]⟩
    · next hne =>
      obtain ⟨back, hback⟩ := ih h
      refine ⟨back, ?_⟩
      rw [List.takeWhile_cons_of_pos (by simpa using hne), List.cons_append, ← hback]

end Entries

namespace Overlay

/-! ## What comes before a path -/

/-- What an override holds under the keys that come before a path: the entries before the first key
of the path and, if the path goes on, the table under that key as far as it comes before the rest of
the path. -/
def before : List String → List (String × Value) → List (String × Value)
  | [], _ => []
  | key :: path, given =>
    given.takeWhile (·.1 ≠ key) ++
      match path, Entries.get? key given with
      | _ :: _, some (.table inner) => [(key, .table (before path inner))]
      | _, _ => []

variable {key : String} {path : List String} {given : List (String × Value)}

/-- Before a path stand the entries before its first key, and the part of the table under this key
that comes before the rest of the path. -/
theorem before_cons (key : String) (path : List String) (given : List (String × Value)) :
    before (key :: path) given = given.takeWhile (·.1 ≠ key) ++
      match path, Entries.get? key given with
      | _ :: _, some (.table inner) => [(key, .table (before path inner))]
      | _, _ => [] := rfl

/-- Before a single key stand the entries before it, and nothing of its value. -/
theorem before_singleton (key : String) (given : List (String × Value)) :
    before [key] given = given.takeWhile (·.1 ≠ key) := by
  rw [before_cons, List.append_nil]

/-- Where a path goes on into a table, a part of this table stands last. -/
theorem before_of_table (hpath : path ≠ []) {inner : List (String × Value)}
    (hget : Entries.get? key given = some (.table inner)) :
    before (key :: path) given =
      given.takeWhile (·.1 ≠ key) ++ [(key, .table (before path inner))] := by
  obtain ⟨next, rest, rfl⟩ := List.exists_cons_of_ne_nil hpath
  rw [before_cons, hget]

/-- Before a path there are the entries before its first key, and at most a part of the table under
it. -/
theorem before_cases (key : String) (path : List String) (given : List (String × Value)) :
    before (key :: path) given = given.takeWhile (·.1 ≠ key) ∨
      ∃ inner, Entries.get? key given = some (.table inner) ∧
        before (key :: path) given =
          given.takeWhile (·.1 ≠ key) ++ [(key, .table (before path inner))] := by
  rw [before_cons]
  split
  · next inner hget => exact .inr ⟨inner, hget, rfl⟩
  · exact .inl (List.append_nil _)

/-- Only entries of the override come before a path, under its first key a part of one. -/
theorem of_mem_before {entry : String × Value} (h : entry ∈ before (key :: path) given) :
    entry ∈ given.takeWhile (·.1 ≠ key) ∨
      ∃ inner, Entries.get? key given = some (.table inner) ∧
        entry = (key, .table (before path inner)) := by
  rcases before_cases key path given with hbefore | ⟨inner, hget, hbefore⟩
  · exact .inl (hbefore ▸ h)
  · rw [hbefore, List.mem_append, List.mem_singleton] at h
    exact h.imp_right fun heq => ⟨inner, hget, heq⟩

/-- Keys that do not come first in a path are passed on the way to it. -/
theorem before_cons_of_ne {other : String} (h : other ≠ key) (path : List String) (value : Value)
    (given : List (String × Value)) :
    before (key :: path) ((other, value) :: given) =
      (other, value) :: before (key :: path) given := by
  rw [before_cons, before_cons, List.takeWhile_cons_of_pos (by simpa using h), Entries.get?,
    if_neg h, List.cons_append]

/-- What comes after the first key of a path plays no part. -/
theorem before_cons_self (key : String) (path : List String) (value : Value)
    (given : List (String × Value)) :
    before (key :: path) ((key, value) :: given) = before (key :: path) [(key, value)] := by
  rw [before_cons, before_cons, List.takeWhile_cons_of_neg (by simp),
    List.takeWhile_cons_of_neg (by simp), Entries.get?, Entries.get?, if_pos rfl, if_pos rfl]

/-- What comes before a path has distinct keys if the override does. -/
theorem distinct_before (h : (Value.table given).HasDistinctKeys) (path : List String) :
    (Value.table (before path given)).HasDistinctKeys := by
  induction path generalizing given with
  | nil => exact .nil
  | cons key path ih =>
    refine .table ?_ fun entry hmem => ?_
    · have hfront : ((given.takeWhile (·.1 ≠ key)).map Prod.fst).Nodup :=
        h.nodup.sublist ((List.takeWhile_sublist _).map _)
      rcases before_cases key path given with hbefore | ⟨inner, _, hbefore⟩
      · rw [hbefore]
        exact hfront
      · rw [hbefore, List.map_append]
        refine List.nodup_append.2 ⟨hfront, by simp, ?_⟩
        rintro other hother last hlast rfl
        obtain rfl := List.mem_singleton.1 hlast
        exact Entries.not_mem_takeWhile _ given hother
    · rcases of_mem_before hmem with hfront | ⟨inner, hget, rfl⟩
      · exact h.of_mem ((List.takeWhile_sublist _).mem hfront)
      · exact ih (h.of_get? hget)

/-- What is left of an override before one of its paths has just the paths before it. -/
theorem pathsOf_before (h : (Value.table given).HasDistinctKeys) {found : Value} (hpath : path ≠ [])
    (hfound : (Value.table given).at? path = some found) :
    Value.pathsOf (before path given) = (Value.pathsOf given).takeWhile (· ≠ path) := by
  induction path generalizing given with
  | nil => exact absurd rfl hpath
  | cons key path ih =>
    obtain ⟨value, hget, hat⟩ := Option.bind_eq_some_iff.1 hfound
    obtain ⟨back, hgiven⟩ := Entries.exists_eq_append hget
    -- No path before the first key starts with it.
    have hfront : ∀ other ∈ Value.pathsOf (given.takeWhile (·.1 ≠ key)),
        decide (other ≠ key :: path) = true := by
      intro other hother
      obtain ⟨first, rest, _, rfl, hmem, _⟩ := Value.mem_pathsOf_iff.1 hother
      refine decide_eq_true fun heq => ?_
      obtain rfl := (List.cons.inj heq).1
      exact Entries.not_mem_takeWhile _ given (List.mem_map_of_mem hmem)
    have hsplit : (Value.pathsOf given).takeWhile (· ≠ key :: path) =
        Value.pathsOf (given.takeWhile (·.1 ≠ key)) ++
          (Value.pathsOf ((key, value) :: back)).takeWhile (· ≠ key :: path) := by
      conv_lhs => rw [hgiven, Value.pathsOf_append]
      exact List.takeWhile_append_of_pos hfront
    rw [hsplit, Value.pathsOf]
    by_cases hnil : path = []
    · subst hnil
      rw [before_singleton, List.cons_append, List.takeWhile_cons_of_neg (by simp),
        List.append_nil]
    · obtain ⟨inner, rfl⟩ := Value.exists_table_of_at? hnil hat
      have hinner := h.of_get? hget
      have hmem : key :: path ∈ (Value.pathsOf inner).map (key :: ·) := List.mem_map_of_mem
        ((Value.mem_paths_iff hinner).2 ⟨hnil, Option.isSome_iff_exists.2 ⟨found, hat⟩⟩)
      have hne : ((fun other => decide (other ≠ key :: path)) ∘ (key :: ·)) =
          fun other => decide (other ≠ path) := by
        funext other
        simp
      obtain ⟨_, _, hpass⟩ := takeWhile_ne_append hmem
      rw [before_of_table hnil hget, Value.pathsOf_append, List.cons_append,
        List.takeWhile_cons_of_pos (by simpa using hnil), Value.paths, hpass, List.takeWhile_map,
        hne, ← ih hinner hnil hat, Value.pathsOf, Value.paths, Value.pathsOf, List.append_nil]

/-- What comes before a path has keys of the override only. -/
theorem mem_keys_of_mem_before (h : key ∈ (before path given).map Prod.fst) :
    key ∈ given.map Prod.fst := by
  obtain ⟨entry, hmem, rfl⟩ := List.mem_map.1 h
  cases path with
  | nil => cases hmem
  | cons first path =>
    rcases of_mem_before hmem with hfront | ⟨inner, hget, rfl⟩
    · exact List.mem_map_of_mem ((List.takeWhile_sublist _).mem hfront)
    · exact Entries.isSome_get?_iff.1 (Option.isSome_iff_exists.2 ⟨_, hget⟩)

/-- What comes before a path and is not passed on the way to it is as in the override. -/
theorem at?_before (h : (Value.table given).HasDistinctKeys) {other : List String}
    (hmem : other ∈ Value.pathsOf (before path given)) (hnot : ¬ other <+: path) :
    (Value.table (before path given)).at? other = (Value.table given).at? other := by
  induction path generalizing given other with
  | nil => cases hmem
  | cons key path ih =>
    obtain ⟨first, rest, value, rfl, hentry, hrest⟩ := Value.mem_pathsOf_iff.1 hmem
    have hget := (Entries.get?_eq_some_iff (distinct_before h _).nodup).2 hentry
    rw [Value.at?_cons, Value.at?_cons, hget]
    rcases of_mem_before hentry with hfront | ⟨inner, hinner, heq⟩
    · rw [(Entries.get?_eq_some_iff h.nodup).2 ((List.takeWhile_sublist _).mem hfront)]
    · cases heq
      rw [hinner]
      have hunder : ¬ rest <+: path := fun hprefix =>
        hnot (List.cons_prefix_cons.2 ⟨rfl, hprefix⟩)
      rcases hrest with rfl | hrest
      · exact absurd (List.nil_prefix) hunder
      · exact ih (h.of_get? hinner) hrest hunder

/-- What comes before a path fits the override it is taken from: values are the same, or tables. -/
theorem fits_before (h : (Value.table given).HasDistinctKeys) (path : List String) :
    Fits (.table (before path given)) (.table given) := by
  induction path generalizing given with
  | nil => exact .table nofun
  | cons key path ih =>
    refine .table fun k old new hold hnew => ?_
    have hmem := (Entries.get?_eq_some_iff (distinct_before h _).nodup).1 hold
    rcases of_mem_before hmem with hfront | ⟨inner, hget, heq⟩
    · have hgiven := (Entries.get?_eq_some_iff h.nodup).2 ((List.takeWhile_sublist _).mem hfront)
      obtain rfl := Option.some.inj (hgiven.symm.trans hnew)
      exact .refl (h.of_get? hnew)
    · cases heq
      obtain rfl := Option.some.inj (hget.symm.trans hnew)
      exact ih (h.of_get? hget)

/-! ## Overrides by path -/

/-- An override that fits does so under every path of both. -/
theorem Fits.at? {old new x y : Value} (h : Fits old new) {path : List String}
    (hx : old.at? path = some x) (hy : new.at? path = some y) : Fits x y := by
  induction path generalizing old new with
  | nil =>
    cases hx
    cases hy
    exact h
  | cons key path ih =>
    cases h with
    | leaf hold _ =>
      rw [Value.at?_cons_of_leaf hold] at hx
      cases hx
    | table h =>
      obtain ⟨old, hold, hx⟩ := Option.bind_eq_some_iff.1 hx
      obtain ⟨new, hnew, hy⟩ := Option.bind_eq_some_iff.1 hy
      exact ih (h key old new hold hnew) hx hy

/-- Under an override that fits, a path leads to what it leads to in both, one under the other. -/
theorem Fits.at?_deep {old new : Value} (h : Fits old new) (path : List String) :
    (deep old new).at? path = deep? (old.at? path) (new.at? path) := by
  induction path generalizing old new with
  | nil => rfl
  | cons key path ih =>
    cases h with
    | leaf hold _ =>
      rw [deep_of_leaf hold, Value.at?_cons_of_leaf hold]
      rfl
    | @table base given h =>
      rw [deep_table, Value.at?_cons, Value.at?_cons, Value.at?_cons, get?_deepEntries_eq_deep?]
      cases hold : Entries.get? key base with
      | none => rfl
      | some old =>
        cases hnew : Entries.get? key given with
        | none =>
          simp only [deep?, Option.bind_some, Option.bind_none]
          cases old.at? path with
          | none => rfl
          | some value => rfl
        | some new => exact ih (h key old new hold hnew)

end Overlay

end FactRules
