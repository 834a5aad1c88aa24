import FactRules.Proofs.Settings.KeyPaths

/-!
# Where merging stops

`Overlay.merge_spec` says that merging succeeds exactly if the override fits. Path by path that
means: wherever both tables lead to a value, the two values are of one kind, and the result has what
the override has, and else what was there (`Overlay.Overrides`). Where they are not of one kind,
merging stops at the first such path of the override, and what came before it was overlaid, that and
nothing more (`Overlay.StopsAt`). `Overlay.merge_overrides_or_stops` puts the two together.

That merging stops so is proved along its recursion (`merge_stops`): a conflict in a table under a
key is one in the table that holds the key (`StopsAt.under`), and a conflict after the first entry
is one of the table that this entry was overlaid on (`StopsAt.cons`).
-/

namespace FactRules

/-- Whether a path leads to values of different kinds in two values. -/
def Value.clashesAt (old new : Value) (path : List String) : Bool :=
  match old.at? path, new.at? path with
  | some x, some y => decide (x.kind ≠ y.kind)
  | _, _ => false

/-- Two values clash at a path if both have something there, and of different kinds. -/
theorem Value.clashesAt_iff {old new : Value} {path : List String} :
    old.clashesAt new path = true ↔
      ∃ x y, old.at? path = some x ∧ new.at? path = some y ∧ x.kind ≠ y.kind := by
  rw [clashesAt]
  split
  · next x y hx hy => simp [hx, hy]
  · next hnone =>
    refine ⟨nofun, fun ⟨x, y, hx, hy, _⟩ => (hnone x y hx hy).elim⟩

namespace Overlay

variable {base given entries : List (String × Value)} {path : List String} {conflict : Conflict}

/-- What an override makes of a table. Where the override has a value that is no table, or the table
has nothing, the result has what the override has; where the override has nothing, it has what the
table has. Keys of the table keep their order, and new ones follow in that of the override.
Overriding again changes nothing. -/
structure Overrides (base given result : List (String × Value)) : Prop where
  replaced : ∀ path new, (Value.table given).at? path = some new →
    new.kind ≠ "dict" ∨ (Value.table base).at? path = none →
    (Value.table result).at? path = some new
  kept : ∀ path, (Value.table given).at? path = none →
    (Value.table result).at? path = (Value.table base).at? path
  keys : ∀ path old new, (Value.table base).at? path = some (.table old) →
    (Value.table given).at? path = some (.table new) →
    ∃ entries, (Value.table result).at? path = some (.table entries) ∧
      entries.map Prod.fst =
        old.map Prod.fst ++ (new.map Prod.fst).filter (· ∉ old.map Prod.fst)
  again : merge [] result given = ⟨result, none⟩

/-- An override that fits is laid over a table. -/
theorem Fits.overrides (h : Fits (.table base) (.table given))
    (hbase : (Value.table base).HasDistinctKeys) (hgiven : (Value.table given).HasDistinctKeys) :
    Overrides base given (deepEntries base given) := by
  have hat (path : List String) : (Value.table (deepEntries base given)).at? path =
      deep? ((Value.table base).at? path) ((Value.table given).at? path) := by
    rw [← deep_table, h.at?_deep]
  constructor
  case replaced =>
    intro path new hnew hor
    rw [hat, hnew]
    cases hold : (Value.table base).at? path with
    | none => rfl
    | some old =>
      rcases hor with hkind | hnone
      · exact congrArg some (deep_of_new_leaf hkind old)
      · rw [hold] at hnone
        cases hnone
  case kept =>
    intro path hnone
    rw [hat, hnone]
    cases (Value.table base).at? path with
    | none => rfl
    | some old => rfl
  case keys =>
    intro path old new hold hnew
    refine ⟨deepEntries old new, ?_, keys_deepEntries old new⟩
    rw [hat, hold, hnew, deep?, deep_table]
  case again =>
    have hagain : Fits (.table (deepEntries base given)) (.table given) :=
      deep_table base given ▸ h.again hgiven
    have hdistinct : (Value.table (deepEntries base given)).HasDistinctKeys :=
      deep_table base given ▸ distinct_deep hbase hgiven
    have hsame := deep_deep hbase hgiven
    rw [deep_table, deep_table] at hsame
    rw [(merge_spec [] _ _ hdistinct hgiven).1 hagain, Value.table.inj hsame]

/-- Where merging stops: the path leads to values of different kinds, what comes before it fits, and
the entries are those of the table under it. -/
structure StopsAt (base given : List (String × Value)) (path : List String) (conflict : Conflict)
    (entries : List (String × Value)) : Prop where
  at_base : (Value.table base).at? path = some conflict.expected
  at_given : (Value.table given).at? path = some conflict.given
  kind_ne : conflict.expected.kind ≠ conflict.given.kind
  fits : Fits (.table base) (.table (before path given))
  entries_eq : entries = deepEntries base (before path given)

namespace StopsAt

/-- Two tables do not clash themselves, so merging stops under some key. -/
theorem path_ne_nil (h : StopsAt base given path conflict entries) : path ≠ [] := by
  rintro rfl
  have hexpected := Option.some.inj h.at_base
  have hgiven := Option.some.inj h.at_given
  exact h.kind_ne (by rw [← hexpected, ← hgiven]; rfl)

/-- A value is met by one of another kind. -/
theorem key {key : String} {old : Value} (hold : Entries.get? key base = some old) {new : Value}
    (hkind : old.kind ≠ new.kind) (path : List String) :
    StopsAt base [(key, new)] [key] ⟨path, old, new⟩ base := by
  have hbefore : before [key] [(key, new)] = [] := by
    rw [before_singleton, List.takeWhile_cons_of_neg (by simp)]
  refine ⟨?_, ?_, hkind, ?_, ?_⟩
  · rw [Value.at?_cons, hold]
    rfl
  · rw [Value.at?_cons, Entries.get?, if_pos rfl]
    rfl
  · rw [hbefore]
    exact .nil base
  · rw [hbefore, deepEntries_nil]

/-- A conflict in a table under a key is one in the table that holds the key. -/
theorem under {key : String} {old inner : List (String × Value)}
    (h : StopsAt old inner path conflict entries) (hbase : (base.map Prod.fst).Nodup)
    (hold : Entries.get? key base = some (.table old)) :
    StopsAt base [(key, .table inner)] (key :: path) conflict
      (Entries.put key (.table entries) base) := by
  have hget : Entries.get? key [(key, Value.table inner)] = some (.table inner) := by
    rw [Entries.get?, if_pos rfl]
  have hbefore : before (key :: path) [(key, .table inner)] =
      [(key, .table (before path inner))] := by
    rw [before_of_table h.path_ne_nil hget, List.takeWhile_cons_of_neg (by simp), List.nil_append]
  refine ⟨?_, ?_, h.kind_ne, ?_, ?_⟩
  · rw [Value.at?_cons, hold]
    exact h.at_base
  · rw [Value.at?_cons, hget]
    exact h.at_given
  · rw [hbefore]
    refine .table fun k value new hvalue hnew => ?_
    rw [Entries.get?] at hnew
    split at hnew
    · next heq =>
      subst heq
      obtain rfl := Option.some.inj (hold.symm.trans hvalue)
      cases hnew
      exact h.fits
    · cases hnew
  · rw [hbefore, deepEntries_cons hbase _ (by simp), deepEntries_nil, deepValue, hold]
    simp only [deep_table, h.entries_eq]

/-- Entries after the one with the first key of the path play no part. -/
theorem of_first {key : String} {new : Value} (rest : List (String × Value))
    (h : StopsAt base [(key, new)] (key :: path) conflict entries) :
    StopsAt base ((key, new) :: rest) (key :: path) conflict entries where
  at_base := h.at_base
  at_given := by
    have hgiven := h.at_given
    rw [Value.at?_cons, Entries.get?, if_pos rfl] at hgiven ⊢
    exact hgiven
  kind_ne := h.kind_ne
  fits := before_cons_self key path new rest ▸ h.fits
  entries_eq := before_cons_self key path new rest ▸ h.entries_eq

/-- A conflict of the table that the first entry was overlaid on comes after this entry. -/
theorem cons {key : String} {new : Value} (hbase : (base.map Prod.fst).Nodup)
    (hnew : key ∉ given.map Prod.fst)
    (hfirst : ∀ old, Entries.get? key base = some old → Fits old new)
    (h : StopsAt (Entries.put key (deepValue base key new) base) given path conflict entries) :
    StopsAt base ((key, new) :: given) path conflict entries := by
  obtain ⟨other, rest, rfl⟩ := List.exists_cons_of_ne_nil h.path_ne_nil
  have hne : key ≠ other := by
    rintro rfl
    obtain ⟨value, hget, _⟩ := Option.bind_eq_some_iff.1 h.at_given
    exact hnew (Entries.isSome_get?_iff.1 (Option.isSome_iff_exists.2 ⟨value, hget⟩))
  have hbefore := before_cons_of_ne hne rest new given
  have hleft : key ∉ (before (other :: rest) given).map Prod.fst :=
    fun hmem => hnew (mem_keys_of_mem_before hmem)
  refine ⟨?_, ?_, h.kind_ne, ?_, ?_⟩
  · have hexpected := h.at_base
    rw [Value.at?_cons, Entries.get?_put, if_neg hne] at hexpected
    exact hexpected
  · rw [Value.at?_cons, Entries.get?, if_neg hne]
    exact h.at_given
  · rw [hbefore]
    exact (fits_cons_iff new hleft).2 ⟨hfirst, h.fits⟩
  · rw [hbefore, deepEntries_cons hbase new hleft]
    exact h.entries_eq

end StopsAt

mutual

/-- A conflict that merging meets is where it stops. -/
theorem merge_stops : ∀ (path : List String) (base given : List (String × Value)),
    (Value.table base).HasDistinctKeys → (Value.table given).HasDistinctKeys →
      ∀ conflict, (merge path base given).conflict = some conflict →
        ∃ rest, conflict.path = path ++ rest ∧
          StopsAt base given rest conflict (merge path base given).entries
  | path, base, [], _, _ => by
    intro conflict hconflict
    rw [merge] at hconflict
    cases hconflict
  | path, base, (key, new) :: given, hbase, hgiven => by
    intro conflict hconflict
    have hvalue : new.HasDistinctKeys := hgiven.of_mem (List.mem_cons_self ..)
    cases hstep : (mergeKey path base key new).conflict with
    | some found =>
      -- The first entry stops the merge, and the others are not looked at.
      have hmerge : merge path base ((key, new) :: given) = mergeKey path base key new := by
        simp only [merge, hstep]
      rw [hmerge] at hconflict ⊢
      obtain ⟨rest, hpath, hstops⟩ :=
        mergeKey_stops path base key new hbase hvalue conflict hconflict
      exact ⟨key :: rest, hpath, hstops.of_first given⟩
    | none =>
      -- The first entry is overlaid, and a conflict is one of the others with the table it leaves.
      obtain ⟨hkey, hfits⟩ := mergeKey_spec path base key new hbase hvalue
      have hfirst := hfits hstep
      have hmerge : merge path base ((key, new) :: given) =
          merge path (Entries.put key (deepValue base key new) base) given := by
        simp only [merge, hkey hfirst]
      rw [hmerge] at hconflict ⊢
      obtain ⟨rest, hpath, hstops⟩ := merge_stops path _ given
        (hbase.put key (distinct_deepValue hbase hvalue key)) hgiven.tail conflict hconflict
      have hnew : key ∉ given.map Prod.fst := (List.nodup_cons.1 hgiven.nodup).1
      exact ⟨rest, hpath, hstops.cons hbase.nodup hnew hfirst⟩

/-- Merging one key stops at a path that begins with it. If the value is no table it stops at the
key itself; otherwise it stops where merging the tables does. -/
theorem mergeKey_stops : ∀ (path : List String) (base : List (String × Value)) (key : String)
    (new : Value), (Value.table base).HasDistinctKeys → new.HasDistinctKeys →
      ∀ conflict, (mergeKey path base key new).conflict = some conflict →
        ∃ rest, conflict.path = path ++ key :: rest ∧
          StopsAt base [(key, new)] (key :: rest) conflict (mergeKey path base key new).entries
  | path, base, key, new, hbase, hnew => by
    intro conflict hconflict
    cases new with
    | table given =>
      rw [mergeKey] at hconflict ⊢
      cases hold : Entries.get? key base with
      | none =>
        rw [hold] at hconflict
        cases hconflict
      | some old =>
        rw [hold] at hconflict
        cases old with
        | table inner =>
          obtain ⟨rest, hpath, hstops⟩ :=
            merge_stops (path ++ [key]) inner given (hbase.of_get? hold) hnew conflict hconflict
          exact ⟨rest, by rw [hpath, List.append_assoc]; rfl, hstops.under hbase.nodup hold⟩
        | null | bool | int | float | str | date | time | dateTime | list =>
          cases hconflict
          exact ⟨[], rfl, .key hold (by simp [Value.kind]) _⟩
    | null | bool | int | float | str | date | time | dateTime | list =>
      rw [mergeKey_of_leaf (by simp [Value.kind])] at hconflict ⊢
      cases hold : Entries.get? key base with
      | none =>
        rw [hold] at hconflict
        cases hconflict
      | some old =>
        simp only [hold] at hconflict ⊢
        split at hconflict
        · cases hconflict
        · next hkind =>
          cases hconflict
          exact ⟨[], rfl, by rw [if_neg hkind]; exact .key hold hkind _⟩

end

/-- Merging stops at the first path of the override that leads to values of different kinds. -/
theorem StopsAt.find? (h : StopsAt base given path conflict entries)
    (hgiven : (Value.table given).HasDistinctKeys) :
    (Value.pathsOf given).find? ((Value.table base).clashesAt (.table given)) = some path := by
  have hmem : path ∈ Value.pathsOf given :=
    (Value.mem_paths_iff hgiven).2 ⟨h.path_ne_nil, Option.isSome_iff_exists.2 ⟨_, h.at_given⟩⟩
  obtain ⟨back, hsplit, _⟩ := takeWhile_ne_append hmem
  refine List.find?_eq_some_iff_append.2
    ⟨Value.clashesAt_iff.2 ⟨_, _, h.at_base, h.at_given, h.kind_ne⟩, _, back, hsplit, ?_⟩
  intro other hother
  -- An earlier path leads to something in what comes before, whose kind is that of both values.
  rw [← pathsOf_before hgiven h.path_ne_nil h.at_given] at hother
  obtain ⟨_, hsome⟩ := (Value.mem_paths_iff (distinct_before hgiven path)).1 hother
  obtain ⟨left, hleft⟩ := Option.isSome_iff_exists.1 hsome
  rw [Bool.not_eq_true', Bool.eq_false_iff]
  intro hclash
  obtain ⟨x, y, hx, hy, hne⟩ := Value.clashesAt_iff.1 hclash
  exact hne ((h.fits.at? hx hleft).kind_eq.trans ((fits_before hgiven path).at? hleft hy).kind_eq)

/-- Merging is overriding unless some path leads to values of different kinds. It stops at the first
such path of the override, depth first, which the message names, and the entries are then what
merging what comes before that path makes of the table. -/
theorem merge_overrides_or_stops (hbase : (Value.table base).HasDistinctKeys)
    (hgiven : (Value.table given).HasDistinctKeys) :
    ((merge [] base given).conflict.isSome ↔
        ∃ path old new, (Value.table base).at? path = some old ∧
          (Value.table given).at? path = some new ∧ old.kind ≠ new.kind) ∧
      ((merge [] base given).conflict = none →
        Overrides base given (merge [] base given).entries) ∧
      ∀ conflict, (merge [] base given).conflict = some conflict →
        (Value.pathsOf given).find? ((Value.table base).clashesAt (.table given)) =
          some conflict.path ∧
        (Value.table base).at? conflict.path = some conflict.expected ∧
        (Value.table given).at? conflict.path = some conflict.given ∧
        conflict.message = "conflicting type for setting " ++ ".".intercalate conflict.path ++
          ": expected " ++ conflict.expected.kind ++ " got " ++ conflict.given.kind ∧
        merge [] base (before conflict.path given) = ⟨(merge [] base given).entries, none⟩ ∧
        Value.pathsOf (before conflict.path given) =
          (Value.pathsOf given).takeWhile (· ≠ conflict.path) ∧
        ∀ path ∈ (Value.pathsOf given).takeWhile (· ≠ conflict.path), ¬ path <+: conflict.path →
          (Value.table (before conflict.path given)).at? path = (Value.table given).at? path := by
  obtain ⟨hfits, hnone⟩ := merge_spec [] base given hbase hgiven
  refine ⟨⟨fun hsome => ?_, fun ⟨path, old, new, hold, hnew, hkind⟩ => ?_⟩, fun h => ?_,
    fun conflict h => ?_⟩
  · obtain ⟨conflict, h⟩ := Option.isSome_iff_exists.1 hsome
    obtain ⟨path, _, hstops⟩ := merge_stops [] base given hbase hgiven conflict h
    exact ⟨path, _, _, hstops.at_base, hstops.at_given, hstops.kind_ne⟩
  · rw [Option.isSome_iff_ne_none]
    intro h
    exact hkind ((hnone h).at? hold hnew).kind_eq
  · rw [hfits (hnone h)]
    exact (hnone h).overrides hbase hgiven
  · obtain ⟨path, hpath, hstops⟩ := merge_stops [] base given hbase hgiven conflict h
    rw [List.nil_append] at hpath
    subst hpath
    have hpaths := pathsOf_before hgiven hstops.path_ne_nil hstops.at_given
    refine ⟨hstops.find? hgiven, hstops.at_base, hstops.at_given, rfl, ?_, hpaths, ?_⟩
    · rw [(merge_spec [] base _ hbase (distinct_before hgiven _)).1 hstops.fits, hstops.entries_eq]
    · intro path hmem hnot
      exact at?_before hgiven (hpaths ▸ hmem) hnot

end Overlay

/-- Settings of a lamp. -/
def lampDefaults : List (String × Value) :=
  [("name", .str "lamp"), ("light", .table [("color", .str "red"), ("power", .int 5)])]

/-- Overrides for the lamp, of which that of the color is of another kind. -/
def lampOverrides : List (String × Value) :=
  [("light", .table [("power", .int 7), ("color", .bool true), ("size", .null)]),
    ("name", .str "torch")]

/-- The color is not overridden, nor is what comes after it, while the power that comes before it
is. -/
theorem lampOverrides_stop :
    (Value.table lampDefaults).HasDistinctKeys ∧ (Value.table lampOverrides).HasDistinctKeys ∧
      ∃ conflict, (Overlay.merge [] lampDefaults lampOverrides).conflict = some conflict ∧
        conflict.path = ["light", "color"] ∧
        (Value.pathsOf lampOverrides).find?
          ((Value.table lampDefaults).clashesAt (.table lampOverrides)) = some conflict.path ∧
        Overlay.merge [] lampDefaults [("light", .table [("power", .int 7)])] =
          ⟨(Overlay.merge [] lampDefaults lampOverrides).entries, none⟩ := by
  have hstr (text : String) : (Value.str text).HasDistinctKeys := .leaf (by simp [Value.kind])
  have hint (n : Int) : (Value.int n).HasDistinctKeys := .leaf (by simp [Value.kind])
  have hbool (b : Bool) : (Value.bool b).HasDistinctKeys := .leaf (by simp [Value.kind])
  have hnull : Value.null.HasDistinctKeys := .leaf (by simp [Value.kind])
  have hbase : (Value.table lampDefaults).HasDistinctKeys :=
    .table (by decide) (List.forall_mem_cons.2
      ⟨hstr _, List.forall_mem_singleton.2 (.table (by decide) (by simp [hstr, hint]))⟩)
  have hgiven : (Value.table lampOverrides).HasDistinctKeys :=
    .table (by decide) (List.forall_mem_cons.2
      ⟨.table (by decide) (by simp [hint, hbool, hnull]), List.forall_mem_singleton.2 (hstr _)⟩)
  have hconflict : (Overlay.merge [] lampDefaults lampOverrides).conflict =
      some ⟨["light", "color"], .str "red", .bool true⟩ := by rfl
  have hbefore : Overlay.before ["light", "color"] lampOverrides =
      [("light", .table [("power", .int 7)])] := by rfl
  obtain ⟨hfirst, _, _, _, hmerge, _⟩ :=
    (Overlay.merge_overrides_or_stops hbase hgiven).2.2 _ hconflict
  rw [hbefore] at hmerge
  exact ⟨hbase, hgiven, _, hconflict, rfl, hfirst, hmerge⟩

end FactRules
