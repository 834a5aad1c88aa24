import FactRules.Settings
import Mathlib.Data.List.Nodup

/-!
# Overlaying tables

`Overlay.merge` overlays a table by an override entry by entry and stops at the first conflict. What
it computes is said here without its order: `Overlay.deep` is the value under an override, and an
override fits (`Overlay.Fits`) if wherever both tables have a key there are two tables under it,
which fit, or two values of one kind. `Overlay.merge_spec` says that the merge succeeds exactly if
the override fits, and with what.

All this is about tables with distinct keys (`Value.HasDistinctKeys`), which is what overlaying
keeps.
-/

namespace FactRules

/-- The keys of a table are distinct, and so are those of the tables in it. What lists hold is not
looked at. -/
inductive Value.HasDistinctKeys : Value → Prop where
  | leaf {value : Value} (h : value.kind ≠ "dict") : HasDistinctKeys value
  | table {entries : List (String × Value)} (nodup : (entries.map Prod.fst).Nodup)
      (inner : ∀ entry ∈ entries, HasDistinctKeys entry.2) : HasDistinctKeys (.table entries)

namespace Value.HasDistinctKeys

variable {entries : List (String × Value)}

/-- An empty table has distinct keys. -/
theorem nil : (Value.table []).HasDistinctKeys :=
  .table .nil fun _ hmem => absurd hmem List.not_mem_nil

/-- The keys of a table itself are distinct. -/
theorem nodup (h : (Value.table entries).HasDistinctKeys) : (entries.map Prod.fst).Nodup := by
  cases h with
  | leaf h => exact absurd rfl h
  | table nodup _ => exact nodup

/-- So are those of each value in it. -/
theorem of_mem (h : (Value.table entries).HasDistinctKeys) {entry : String × Value}
    (hmem : entry ∈ entries) : entry.2.HasDistinctKeys := by
  cases h with
  | leaf h => exact absurd rfl h
  | table _ inner => exact inner entry hmem

/-- So are those of the value under a key. -/
theorem of_get? (h : (Value.table entries).HasDistinctKeys) {key : String} {value : Value}
    (hget : Entries.get? key entries = some value) : value.HasDistinctKeys :=
  h.of_mem ((Entries.get?_eq_some_iff h.nodup).1 hget)

/-- A table without its first entry has distinct keys still. -/
theorem tail {entry : String × Value} (h : (Value.table (entry :: entries)).HasDistinctKeys) :
    (Value.table entries).HasDistinctKeys :=
  .table (List.nodup_cons.1 h.nodup).2 fun _ hmem => h.of_mem (List.mem_cons_of_mem _ hmem)

/-- Setting a key keeps the keys distinct. -/
theorem put (h : (Value.table entries).HasDistinctKeys) (key : String) {value : Value}
    (hvalue : value.HasDistinctKeys) :
    (Value.table (Entries.put key value entries)).HasDistinctKeys := by
  refine .table (Entries.nodup_put h.nodup key value) fun entry hmem => ?_
  rcases Entries.of_mem_put hmem with rfl | hold
  · exact hvalue
  · exact h.of_mem hold

end Value.HasDistinctKeys

/-- Only tables are of the kind of tables. -/
theorem Value.kind_eq_dict_iff {value : Value} :
    value.kind = "dict" ↔ ∃ entries, value = .table entries := by
  cases value <;> simp [kind]

/-- Only texts are of the kind of texts. -/
theorem Value.kind_eq_str_iff {value : Value} : value.kind = "str" ↔ ∃ text, value = .str text := by
  cases value <;> simp [kind]

/-- Only integers are of the kind of integers: truth values have one of their own. -/
theorem Value.kind_eq_int_iff {value : Value} : value.kind = "int" ↔ ∃ n, value = .int n := by
  cases value <;> simp [kind]

namespace Overlay

/-! ## Values under overrides -/

mutual

/-- A value under an override: a table is overlaid by a table, and anything else is replaced. The
new keys of the override come after the old ones. -/
def deep : Value → Value → Value
  | .table base, .table given =>
    .table (deepOld base given ++ given.filter fun entry => entry.1 ∉ base.map Prod.fst)
  | _, given => given

/-- The old entries of a table under an override, each under what is given for its key. -/
def deepOld : List (String × Value) → List (String × Value) → List (String × Value)
  | [], _ => []
  | (key, value) :: rest, given =>
    (key, match Entries.get? key given with
      | some new => deep value new
      | none => value) :: deepOld rest given

end

/-- The entries of a table under an override. -/
def deepEntries (base given : List (String × Value)) : List (String × Value) :=
  deepOld base given ++ given.filter fun entry => entry.1 ∉ base.map Prod.fst

/-- An override fits a value: both are tables, and the override fits wherever both have a key, or
they are of one kind. -/
inductive Fits : Value → Value → Prop where
  | leaf {old new : Value} (hold : old.kind ≠ "dict") (hkind : old.kind = new.kind) : Fits old new
  | table {base given : List (String × Value)}
      (h : ∀ key old new, Entries.get? key base = some old → Entries.get? key given = some new →
        Fits old new) : Fits (.table base) (.table given)

/-- An override that fits a table fits it under each key that both have. -/
theorem Fits.get? {base given : List (String × Value)} (h : Fits (.table base) (.table given))
    {key : String} {old new : Value} (hold : Entries.get? key base = some old)
    (hnew : Entries.get? key given = some new) : Fits old new := by
  cases h with
  | leaf h _ => exact absurd rfl h
  | table h => exact h key old new hold hnew

/-- Every table takes an override without entries. -/
theorem Fits.nil (base : List (String × Value)) : Fits (.table base) (.table []) := .table nofun

/-- What fits is of the same kind. -/
theorem Fits.kind_eq {old new : Value} (h : Fits old new) : old.kind = new.kind := by
  cases h with
  | leaf _ hkind => exact hkind
  | table _ => rfl

/-- A table is under a table or gets no override. -/
theorem Fits.exists_table {base : List (String × Value)} {new : Value}
    (h : Fits (.table base) new) : ∃ given, new = .table given := by
  cases h with
  | leaf h _ => exact absurd rfl h
  | table _ => exact ⟨_, rfl⟩

/-- What replaces a value that is no table is the override. -/
theorem deep_of_leaf {old : Value} (hold : old.kind ≠ "dict") (new : Value) :
    deep old new = new := by
  cases old with
  | table base => exact absurd rfl hold
  | null | bool | int | float | str | date | time | dateTime | list => simp [deep]

/-- An override that is no table replaces what was there. -/
theorem deep_of_new_leaf {new : Value} (hnew : new.kind ≠ "dict") (old : Value) :
    deep old new = new := by
  cases new with
  | table given => exact absurd rfl hnew
  | null | bool | int | float | str | date | time | dateTime | list => cases old <;> simp [deep]

/-- A table under a table keeps the entries of both, as `deepEntries` puts them. -/
theorem deep_table (base given : List (String × Value)) :
    deep (.table base) (.table given) = .table (deepEntries base given) := by
  rw [deep, deepEntries]

/-- An override that fits changes the kind of no value. -/
theorem Fits.kind_deep {old new : Value} (h : Fits old new) : (deep old new).kind = old.kind := by
  cases h with
  | leaf hold hkind => rw [deep_of_leaf hold, hkind]
  | table _ => rw [deep_table]; rfl

/-- Old keys stay, in their order. -/
theorem map_fst_deepOld (base given : List (String × Value)) :
    (deepOld base given).map Prod.fst = base.map Prod.fst := by
  induction base with
  | nil => rfl
  | cons entry rest ih => simp [deepOld, ih]

/-- An old key has its old value under the given one, if one is given; new keys are not there
yet. -/
theorem get?_deepOld (base given : List (String × Value)) (key : String) :
    Entries.get? key (deepOld base given) =
      (Entries.get? key base).map fun value =>
        match Entries.get? key given with
        | some new => deep value new
        | none => value := by
  induction base with
  | nil => rfl
  | cons entry rest ih =>
    obtain ⟨other, value⟩ := entry
    rw [deepOld, Entries.get?, Entries.get?]
    split
    · next heq =>
      subst heq
      rfl
    · exact ih

/-- Under an override an old key has its old value under the given one, if one is given. -/
theorem get?_deepEntries {base given : List (String × Value)} {key : String} {old : Value}
    (hold : Entries.get? key base = some old) :
    Entries.get? key (deepEntries base given) =
      some (match Entries.get? key given with
        | some new => deep old new
        | none => old) := by
  rw [deepEntries, Entries.get?_append, get?_deepOld, hold]
  rfl

/-- The value of a key in two tables, if it has one, one table under the other. -/
def deep? : Option Value → Option Value → Option Value
  | some old, some new => some (deep old new)
  | some old, none => some old
  | none, new => new

/-- What a table holds for a key under an override depends on what both hold for this key only. -/
theorem get?_deepEntries_eq_deep? (base given : List (String × Value)) (key : String) :
    Entries.get? key (deepEntries base given) =
      deep? (Entries.get? key base) (Entries.get? key given) := by
  cases hold : Entries.get? key base with
  | some old =>
    rw [get?_deepEntries hold]
    cases Entries.get? key given with
    | none => rfl
    | some new => rfl
  | none =>
    have hnew := Entries.get?_eq_none_iff.1 hold
    rw [deepEntries, Entries.get?_append, get?_deepOld, hold, Option.map_none, Option.none_or,
      Entries.get?_filter fun other => decide (other ∉ base.map Prod.fst),
      if_pos (decide_eq_true hnew)]
    rfl

/-- Old keys keep their order under an override, and its new ones follow in theirs. -/
theorem keys_deepEntries (base given : List (String × Value)) :
    (deepEntries base given).map Prod.fst =
      base.map Prod.fst ++ (given.map Prod.fst).filter (· ∉ base.map Prod.fst) := by
  rw [deepEntries, List.map_append, map_fst_deepOld, List.filter_map]
  rfl

/-- A key that is not looked up plays no part. -/
theorem deepOld_cons_of_not_mem {base : List (String × Value)} {key : String}
    (h : key ∉ base.map Prod.fst) (value : Value) (given : List (String × Value)) :
    deepOld base ((key, value) :: given) = deepOld base given := by
  induction base with
  | nil => rfl
  | cons entry rest ih =>
    obtain ⟨other, old⟩ := entry
    rw [List.map_cons, List.mem_cons, not_or] at h
    rw [deepOld, deepOld, ih h.2, Entries.get?, if_neg h.1]

/-- An override without entries changes nothing. -/
theorem deepEntries_nil (base : List (String × Value)) : deepEntries base [] = base := by
  rw [deepEntries, List.filter_nil, List.append_nil]
  induction base with
  | nil => rfl
  | cons entry rest ih => rw [deepOld, ih, Entries.get?]

/-- Old entries are overlaid one by one. -/
theorem deepOld_append (front back given : List (String × Value)) :
    deepOld (front ++ back) given = deepOld front given ++ deepOld back given := by
  induction front with
  | nil => rfl
  | cons entry rest ih => rw [List.cons_append, deepOld, deepOld, ih, List.cons_append]

/-- The first entry of an override may be overlaid before the others if it is of an old key. -/
theorem deepOld_put {base : List (String × Value)} (hbase : (base.map Prod.fst).Nodup)
    {key : String} {old : Value} (hold : Entries.get? key base = some old) (new : Value)
    {given : List (String × Value)} (hnew : Entries.get? key given = none) :
    deepOld (Entries.put key (deep old new) base) given = deepOld base ((key, new) :: given) := by
  induction base with
  | nil => cases hold
  | cons entry rest ih =>
    obtain ⟨other, value⟩ := entry
    obtain ⟨hother, hrest⟩ := List.nodup_cons.1 hbase
    rw [Entries.get?] at hold
    rw [Entries.put]
    split at hold
    · next heq =>
      subst heq
      cases hold
      rw [if_pos rfl, deepOld, deepOld, deepOld_cons_of_not_mem hother, hnew, Entries.get?,
        if_pos rfl]
    · next hne =>
      rw [if_neg hne, deepOld, deepOld, ih hrest hold, Entries.get?, if_neg (Ne.symm hne)]

/-- What a table holds for one key of an override. -/
def deepValue (base : List (String × Value)) (key : String) (new : Value) : Value :=
  match Entries.get? key base with
  | some old => deep old new
  | none => new

/-- The entries of an override may be overlaid one by one. -/
theorem deepEntries_cons {base : List (String × Value)} (hbase : (base.map Prod.fst).Nodup)
    {key : String} (new : Value) {given : List (String × Value)}
    (hnew : key ∉ given.map Prod.fst) :
    deepEntries base ((key, new) :: given) =
      deepEntries (Entries.put key (deepValue base key new) base) given := by
  have hnone := Entries.get?_eq_none_iff.2 hnew
  rw [deepEntries, deepEntries, deepValue]
  cases hold : Entries.get? key base with
  | some old =>
    have hmem : key ∈ base.map Prod.fst := Entries.isSome_get?_iff.1 (by rw [hold]; rfl)
    rw [deepOld_put hbase hold new hnone, Entries.map_fst_put, if_pos hmem,
      List.filter_cons_of_neg (by simpa using hmem)]
  | none =>
    have hmem := Entries.get?_eq_none_iff.1 hold
    have hothers : (given.filter fun entry => entry.1 ∉ base.map Prod.fst) =
        given.filter fun entry => entry.1 ∉ (base ++ [(key, new)]).map Prod.fst := by
      refine List.filter_congr fun entry hentry => ?_
      have hne : entry.1 ≠ key := fun heq => hnew (heq ▸ List.mem_map_of_mem hentry)
      simp [hne]
    rw [deepOld_cons_of_not_mem hmem, List.filter_cons_of_pos (by simpa using hmem), hothers,
      Entries.put_of_not_mem new hmem, deepOld_append, deepOld, deepOld, hnone]
    simp

/-- Overlaying keeps keys distinct. -/
theorem distinct_deep {old new : Value} (hold : old.HasDistinctKeys) (hnew : new.HasDistinctKeys) :
    (deep old new).HasDistinctKeys := by
  induction hold generalizing new with
  | leaf hkind => rwa [deep_of_leaf hkind]
  | @table base nodup inner ih =>
    by_cases htable : new.kind = "dict"
    · obtain ⟨given, rfl⟩ := Value.kind_eq_dict_iff.1 htable
      rw [deep_table]
      refine .table ?_ fun entry hmem => ?_
      · rw [deepEntries, List.map_append, map_fst_deepOld]
        refine List.nodup_append.2 ⟨nodup, hnew.nodup.sublist (List.filter_sublist.map _), ?_⟩
        rintro key hkey other hother rfl
        obtain ⟨entry, hmem, rfl⟩ := List.mem_map.1 hother
        exact of_decide_eq_true (List.mem_filter.1 hmem).2 hkey
      · rcases List.mem_append.1 hmem with hmem | hmem
        · have hget := (Entries.get?_eq_some_iff (by rwa [map_fst_deepOld])).2 hmem
          rw [get?_deepOld] at hget
          obtain ⟨value, hvalue, hdeep⟩ := Option.map_eq_some_iff.1 hget
          have hvalueMem := (Entries.get?_eq_some_iff nodup).1 hvalue
          rw [← hdeep]
          split
          · next new hnewGet => exact ih _ hvalueMem (hnew.of_get? hnewGet)
          · exact inner _ hvalueMem
        · exact hnew.of_mem (List.mem_filter.1 hmem).1
    · rwa [deep_of_new_leaf htable]

/-! ## Overriding again -/

/-- Every value fits itself. -/
theorem Fits.refl {value : Value} (h : value.HasDistinctKeys) : Fits value value := by
  induction h with
  | leaf hkind => exact .leaf hkind rfl
  | table nodup _ ih =>
    refine .table fun key old new hold hnew => ?_
    obtain rfl := Option.some.inj (hold.symm.trans hnew)
    exact ih _ ((Entries.get?_eq_some_iff nodup).1 hold)

/-- An override that fits a value fits what it makes of it. -/
theorem Fits.again {old new : Value} (h : Fits old new) (hnew : new.HasDistinctKeys) :
    Fits (deep old new) new := by
  induction h with
  | leaf hold _ =>
    rw [deep_of_leaf hold]
    exact .refl hnew
  | @table base given _ ih =>
    rw [deep_table]
    refine .table fun key value new hvalue hgiven => ?_
    rw [get?_deepEntries_eq_deep?, hgiven] at hvalue
    cases hold : Entries.get? key base with
    | none =>
      rw [hold] at hvalue
      cases hvalue
      exact .refl (hnew.of_get? hgiven)
    | some old =>
      rw [hold] at hvalue
      cases hvalue
      exact ih key old new hold hgiven (hnew.of_get? hgiven)

/-- A value under itself is itself. -/
theorem deep_self {value : Value} (h : value.HasDistinctKeys) : deep value value = value := by
  induction h with
  | leaf hkind => exact deep_of_leaf hkind _
  | @table entries nodup _ ih =>
    have hkeys : (deepEntries entries entries).map Prod.fst = entries.map Prod.fst := by
      rw [keys_deepEntries, List.filter_eq_nil_iff.2 (by simp), List.append_nil]
    rw [deep_table]
    refine congrArg Value.table (Entries.ext_get? (hkeys ▸ nodup) hkeys fun key => ?_)
    rw [get?_deepEntries_eq_deep?]
    cases hvalue : Entries.get? key entries with
    | none => rfl
    | some value => exact congrArg some (ih _ ((Entries.get?_eq_some_iff nodup).1 hvalue))

/-- Overriding again changes nothing. -/
theorem deep_deep {old new : Value} (hold : old.HasDistinctKeys) (hnew : new.HasDistinctKeys) :
    deep (deep old new) new = deep old new := by
  induction hold generalizing new with
  | leaf hkind => rw [deep_of_leaf hkind, deep_self hnew]
  | @table base nodup inner ih =>
    by_cases htable : new.kind = "dict"
    · obtain ⟨given, rfl⟩ := Value.kind_eq_dict_iff.1 htable
      have hdistinct := distinct_deep (.table nodup inner) hnew
      rw [deep_table] at hdistinct ⊢
      have hkeys : (deepEntries (deepEntries base given) given).map Prod.fst =
          (deepEntries base given).map Prod.fst := by
        rw [keys_deepEntries, List.filter_eq_nil_iff.2, List.append_nil]
        intro key hkey
        rw [keys_deepEntries]
        by_cases hmem : key ∈ base.map Prod.fst <;> simp_all
      rw [deep_table]
      -- Key by key: old ones by induction, and new ones have the value that overrides itself.
      refine congrArg Value.table (Entries.ext_get? (hkeys ▸ hdistinct.nodup) hkeys fun key => ?_)
      rw [get?_deepEntries_eq_deep?, get?_deepEntries_eq_deep?]
      cases hvalue : Entries.get? key base with
      | none =>
        cases hgiven : Entries.get? key given with
        | none => rfl
        | some value => exact congrArg some (deep_self (hnew.of_get? hgiven))
      | some old =>
        cases hgiven : Entries.get? key given with
        | none => rfl
        | some value =>
          have hmem := (Entries.get?_eq_some_iff nodup).1 hvalue
          exact congrArg some (ih _ hmem (hnew.of_get? hgiven))
    · rw [deep_of_new_leaf htable, deep_of_new_leaf htable]

/-- One more overlaid value has distinct keys. -/
theorem distinct_deepValue {base : List (String × Value)}
    (hbase : (Value.table base).HasDistinctKeys) {new : Value} (hnew : new.HasDistinctKeys)
    (key : String) : (deepValue base key new).HasDistinctKeys := by
  rw [deepValue]
  split
  · next old hold => exact distinct_deep (hbase.of_get? hold) hnew
  · exact hnew

/-! ## What merging computes -/

/-- An override fits a table if its first entry does and the others do then. -/
theorem fits_cons_iff {base : List (String × Value)} {key : String} (new : Value)
    {given : List (String × Value)} (hnew : key ∉ given.map Prod.fst) :
    Fits (.table base) (.table ((key, new) :: given)) ↔
      (∀ old, Entries.get? key base = some old → Fits old new) ∧
        Fits (.table (Entries.put key (deepValue base key new) base)) (.table given) := by
  have hother : ∀ {k value}, Entries.get? k given = some value → key ≠ k := by
    rintro k value hget rfl
    exact hnew (Entries.isSome_get?_iff.1 (by rw [hget]; rfl))
  constructor
  · intro h
    refine ⟨fun old hold => h.get? hold (by rw [Entries.get?, if_pos rfl]), .table ?_⟩
    intro k old value hold hget
    rw [Entries.get?_put, if_neg (hother hget)] at hold
    exact h.get? hold (by rw [Entries.get?, if_neg (hother hget), hget])
  · rintro ⟨hfirst, hrest⟩
    refine .table fun k old value hold hget => ?_
    rw [Entries.get?] at hget
    split at hget
    · next heq =>
      cases hget
      exact hfirst old (heq ▸ hold)
    · next hne =>
      exact hrest.get? (by rw [Entries.get?_put, if_neg hne, hold]) hget

/-- Overlaying a key by a value that is no table. -/
theorem mergeKey_of_leaf {new : Value} (hnew : new.kind ≠ "dict") (path : List String)
    (base : List (String × Value)) (key : String) :
    mergeKey path base key new =
      match Entries.get? key base with
      | none => ⟨Entries.put key new base, none⟩
      | some old =>
        if old.kind = new.kind then ⟨Entries.put key new base, none⟩
        else ⟨base, some ⟨path ++ [key], old, new⟩⟩ := by
  cases new with
  | table given => exact absurd rfl hnew
  | null | bool | int | float | str | date | time | dateTime | list =>
    cases hold : Entries.get? key base with
    | none => simp only [mergeKey, hold]
    | some old => simp only [mergeKey, hold]

/-- A value that is no table fits a value of its kind. -/
theorem mergeKey_spec_of_leaf {new : Value} (hnew : new.kind ≠ "dict") (path : List String)
    (base : List (String × Value)) (key : String) :
    ((∀ old, Entries.get? key base = some old → Fits old new) →
        mergeKey path base key new = ⟨Entries.put key (deepValue base key new) base, none⟩) ∧
      ((mergeKey path base key new).conflict = none →
        ∀ old, Entries.get? key base = some old → Fits old new) := by
  rw [mergeKey_of_leaf hnew, deepValue]
  cases hold : Entries.get? key base with
  | none => exact ⟨fun _ => rfl, fun _ old hsome => by cases hsome⟩
  | some old =>
    by_cases hkind : old.kind = new.kind
    · have hleaf : old.kind ≠ "dict" := hkind ▸ hnew
      simp only [if_pos hkind, deep_of_leaf hleaf]
      refine ⟨fun _ => trivial, fun _ other hother => ?_⟩
      cases hother
      exact .leaf hleaf hkind
    · simp only [if_neg hkind]
      refine ⟨fun hfits => absurd (hfits old rfl).kind_eq hkind, fun hnone => by cases hnone⟩

mutual

/-- Merging an override that fits gives the table under it, and merging another one meets a
conflict. -/
theorem merge_spec : ∀ (path : List String) (base given : List (String × Value)),
    (Value.table base).HasDistinctKeys → (Value.table given).HasDistinctKeys →
      (Fits (.table base) (.table given) → merge path base given = ⟨deepEntries base given, none⟩) ∧
        ((merge path base given).conflict = none → Fits (.table base) (.table given))
  | path, base, [], _, _ => by
    refine ⟨fun _ => ?_, fun _ => .nil base⟩
    rw [merge, deepEntries_nil]
  | path, base, (key, new) :: given, hbase, hgiven => by
    have hnew : key ∉ given.map Prod.fst := (List.nodup_cons.1 hgiven.nodup).1
    have hvalue : new.HasDistinctKeys := hgiven.of_mem (List.mem_cons_self ..)
    obtain ⟨hkey, hkeyFits⟩ := mergeKey_spec path base key new hbase hvalue
    obtain ⟨hrest, hrestFits⟩ := merge_spec path (Entries.put key (deepValue base key new) base)
      given (hbase.put key (distinct_deepValue hbase hvalue key)) hgiven.tail
    -- Both sides overlay the first entry before the others, which then meet the table it leaves.
    rw [fits_cons_iff new hnew, merge, deepEntries_cons hbase.nodup new hnew]
    refine ⟨fun ⟨hfirst, hothers⟩ => ?_, fun hnone => ?_⟩
    · rw [hkey hfirst]
      exact hrest hothers
    · split at hnone
      · next hconflict =>
        rw [hconflict] at hnone
        cases hnone
      · next hconflict =>
        have hfirst := hkeyFits hconflict
        rw [hkey hfirst] at hnone
        exact ⟨hfirst, hrestFits hnone⟩

/-- Merging one key is overlaying its value if that fits, and merges without a conflict only
then. -/
theorem mergeKey_spec : ∀ (path : List String) (base : List (String × Value)) (key : String)
    (new : Value), (Value.table base).HasDistinctKeys → new.HasDistinctKeys →
      ((∀ old, Entries.get? key base = some old → Fits old new) →
        mergeKey path base key new = ⟨Entries.put key (deepValue base key new) base, none⟩) ∧
        ((mergeKey path base key new).conflict = none →
          ∀ old, Entries.get? key base = some old → Fits old new)
  | path, base, key, new, hbase, hnew => by
    cases new with
    | table given =>
      rw [mergeKey, deepValue]
      cases hold : Entries.get? key base with
      | none => exact ⟨fun _ => rfl, fun _ old hsome => by cases hsome⟩
      | some old =>
        cases old with
        | table inner =>
          obtain ⟨hinner, hinnerFits⟩ :=
            merge_spec (path ++ [key]) inner given (hbase.of_get? hold) hnew
          refine ⟨fun hfits => ?_, fun hnone other hother => ?_⟩
          · simp only [hinner (hfits _ rfl), deep_table]
          · cases hother
            exact hinnerFits hnone
        | null | bool | int | float | str | date | time | dateTime | list =>
          refine ⟨fun hfits => absurd (hfits _ rfl).kind_eq ?_, fun hnone => by cases hnone⟩
          simp [Value.kind]
    | null | bool | int | float | str | date | time | dateTime | list =>
      exact mergeKey_spec_of_leaf (by simp [Value.kind]) path base key

end

end Overlay

end FactRules
