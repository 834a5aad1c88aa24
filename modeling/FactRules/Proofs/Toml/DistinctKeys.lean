import FactRules.Proofs.Settings.DeepOverride

/-!
# Tables that are read have distinct keys

A TOML document defines nothing twice, so the tables that are read from it have distinct keys:
`Toml.distinct_of_read?`. The tables under construction are followed (`Tree.HasDistinctKeys`): the
three ways to add to them keep their keys distinct, for each sets a key in the entries at the end of
a path (`Tree.preserves_alter`).
-/

namespace FactRules.Toml

namespace Tree

/-- The keys of a table under construction are distinct, and so are those of the tables in it. -/
inductive HasDistinctKeys : Tree → Prop where
  | leaf {value : Value} (h : value.HasDistinctKeys) : HasDistinctKeys (leaf value)
  | table {origin : Origin} {entries : Branches} (nodup : (entries.map Prod.fst).Nodup)
      (inner : ∀ entry ∈ entries, HasDistinctKeys entry.2) : HasDistinctKeys (table origin entries)
  | tables {items : List Branches} (nodup : ∀ entries ∈ items, (entries.map Prod.fst).Nodup)
      (inner : ∀ entries ∈ items, ∀ entry ∈ entries, HasDistinctKeys entry.2) :
      HasDistinctKeys (tables items)

end Tree

/-- The keys of entries under construction are distinct, and so are those of the tables in them. -/
def Branches.HasDistinctKeys (entries : Branches) : Prop :=
  (entries.map Prod.fst).Nodup ∧ ∀ entry ∈ entries, entry.2.HasDistinctKeys

namespace Branches.HasDistinctKeys

variable {entries : Branches}

theorem nil : Branches.HasDistinctKeys [] := ⟨.nil, nofun⟩

/-- Every branch has distinct keys. -/
theorem of_get? (h : entries.HasDistinctKeys) {key : String} {tree : Tree}
    (hget : Entries.get? key entries = some tree) : tree.HasDistinctKeys :=
  h.2 _ ((Entries.get?_eq_some_iff h.1).1 hget)

/-- Putting a tree under a key keeps keys distinct: one that is there is replaced. -/
theorem put (h : entries.HasDistinctKeys) (key : String) {tree : Tree}
    (htree : tree.HasDistinctKeys) :
    Branches.HasDistinctKeys (Entries.put key tree entries) := by
  refine ⟨Entries.nodup_put h.1 key tree, fun entry hmem => ?_⟩
  rcases Entries.of_mem_put hmem with rfl | hold
  · exact htree
  · exact h.2 entry hold

theorem table (h : entries.HasDistinctKeys) (origin : Origin) :
    (Tree.table origin entries).HasDistinctKeys := .table h.1 h.2

/-- The branches of a table with distinct keys have distinct keys. -/
theorem of_table {origin : Origin} (h : (Tree.table origin entries).HasDistinctKeys) :
    entries.HasDistinctKeys := by
  cases h with
  | table nodup inner => exact ⟨nodup, inner⟩

end Branches.HasDistinctKeys

namespace Tree

/-- A change keeps keys distinct. -/
def Preserves (change : Branches → Option Branches) : Prop :=
  ∀ {entries changed : Branches}, entries.HasDistinctKeys → change entries = some changed →
    changed.HasDistinctKeys

/-- Each table of an array of tables has distinct keys. -/
theorem HasDistinctKeys.of_mem_tables {items : List Branches}
    (h : (Tree.tables items).HasDistinctKeys) {entries : Branches} (hmem : entries ∈ items) :
    entries.HasDistinctKeys := by
  cases h with
  | tables nodup inner => exact ⟨nodup entries hmem, inner entries hmem⟩

/-- The tables of an array have distinct keys each. -/
theorem HasDistinctKeys.of_items {items : List Branches}
    (h : ∀ entries ∈ items, Branches.HasDistinctKeys entries) :
    (Tree.tables items).HasDistinctKeys :=
  .tables (fun entries hmem => (h entries hmem).1) fun entries hmem => (h entries hmem).2

/-- An array of tables may grow by a table. -/
theorem HasDistinctKeys.push {items : List Branches} (h : (Tree.tables items).HasDistinctKeys)
    {last : Branches} (hlast : last.HasDistinctKeys) :
    (Tree.tables (items ++ [last])).HasDistinctKeys := by
  refine .of_items fun item hmem => ?_
  rcases List.mem_append.1 hmem with hmem | hmem
  · exact h.of_mem_tables hmem
  · exact List.mem_singleton.1 hmem ▸ hlast

/-- The last table of an array may be taken off. -/
theorem HasDistinctKeys.dropLast {items : List Branches} (h : (Tree.tables items).HasDistinctKeys) :
    (Tree.tables items.dropLast).HasDistinctKeys :=
  .of_items fun _ hmem => h.of_mem_tables (items.dropLast_sublist.subset hmem)

/-- A change at the end of a path keeps keys distinct if it does so there. -/
theorem preserves_alter {change : Branches → Option Branches} (hchange : Preserves change)
    (making : Origin) (through : Origin → Bool) (arrays : Bool) (path : List String) :
    Preserves (alter making through arrays change path) := by
  induction path with
  | nil => exact hchange
  | cons key path ih =>
    intro entries changed h halter
    rw [alter] at halter
    cases hget : Entries.get? key entries with
    | none =>
      simp only [hget] at halter
      obtain ⟨made, hmade, rfl⟩ := Option.map_eq_some_iff.1 halter
      exact h.put key ((ih .nil hmade).table making)
    | some tree =>
      have htree := h.of_get? hget
      cases tree with
      | leaf value =>
        simp only [hget] at halter
        cases halter
      | table origin inner =>
        simp only [hget] at halter
        split at halter
        · obtain ⟨next, hnext, rfl⟩ := Option.map_eq_some_iff.1 halter
          exact h.put key ((ih (.of_table htree) hnext).table _)
        · cases halter
      | tables items =>
        simp only [hget] at halter
        split at halter
        · next last hlast =>
          obtain ⟨next, hnext, rfl⟩ := Option.map_eq_some_iff.1 halter
          have hlastDistinct := htree.of_mem_tables (List.mem_of_getLast? hlast)
          exact h.put key (htree.dropLast.push (ih hlastDistinct hnext))
        · cases halter

/-- Opening a table keeps keys distinct, whether it is new or was passed through before. -/
theorem preserves_openTable (path : List String) (key : String) :
    Preserves (openTable path key) := by
  refine preserves_alter (fun {entries changed} h hchange => ?_) _ _ _ path
  split at hchange
  · cases hchange
    exact h.put key (.table .nil nofun)
  · next inner hget =>
    cases hchange
    exact h.put key ((Branches.HasDistinctKeys.of_table (h.of_get? hget)).table _)
  · cases hchange

/-- Adding a table to an array keeps keys distinct. -/
theorem preserves_openItem (path : List String) (key : String) :
    Preserves (openItem path key) := by
  refine preserves_alter (fun {entries changed} h hchange => ?_) _ _ _ path
  split at hchange
  · cases hchange
    have hnone : (tables []).HasDistinctKeys := .of_items nofun
    exact h.put key (hnone.push .nil)
  · next items hget =>
    cases hchange
    exact h.put key ((h.of_get? hget).push .nil)
  · cases hchange

/-- So does an assignment of a value that has distinct keys itself. -/
theorem preserves_assign (path dots : List String) (key : String) {value : Value}
    (hvalue : value.HasDistinctKeys) : Preserves (assign path dots key value) := by
  refine preserves_alter (preserves_alter (fun {entries changed} h hchange => ?_) _ _ _ dots) _ _ _
    path
  split at hchange
  · cases hchange
    exact h.put key (.leaf hvalue)
  · cases hchange

/-- The values of entries have their keys. -/
theorem entriesToValues_eq_map (entries : Branches) :
    entriesToValues entries = entries.map fun entry => (entry.1, entry.2.toValue) := by
  induction entries with
  | nil => rfl
  | cons entry rest ih => rw [entriesToValues, ih, List.map_cons]

/-- The value of a tree has distinct keys if the tree does. -/
theorem HasDistinctKeys.toValue {tree : Tree} (h : tree.HasDistinctKeys) :
    tree.toValue.HasDistinctKeys := by
  induction h with
  | leaf h => rwa [Tree.toValue]
  | table nodup inner ih =>
    rw [Tree.toValue, entriesToValues_eq_map]
    refine .table (by rwa [List.map_map]) fun entry hmem => ?_
    obtain ⟨branch, hbranch, rfl⟩ := List.mem_map.1 hmem
    exact ih branch hbranch
  | tables inner ih =>
    rw [Tree.toValue]
    exact .leaf (by simp [Value.kind])

end Tree

/-- The value of a whole document is the table of its branches. -/
theorem Branches.HasDistinctKeys.toValues {entries : Branches} (h : entries.HasDistinctKeys) :
    (Value.table (Tree.entriesToValues entries)).HasDistinctKeys := by
  have htable := (h.table .passed).toValue
  rwa [Tree.toValue] at htable

/-! ## Values that are read -/

/-- A date or a time is not a table. -/
theorem kind_of_moment {input rest : Input} {read : Value} (h : moment input = some (read, rest)) :
    read.kind ≠ "dict" := by
  rw [moment] at h
  split at h
  · split at h <;> cases h <;> simp [Value.kind]
  · obtain ⟨_, _, heq⟩ := Option.map_eq_some_iff.1 h
    cases heq
    simp [Value.kind]

/-- Nor is a number with a fraction. -/
theorem kind_of_double? {negative : Bool} {text : List Char} {read : Value}
    (h : decimal?.double? negative text = some read) : read.kind ≠ "dict" := by
  obtain ⟨_, _, rfl⟩ := Option.map_eq_some_iff.1 h
  simp [Value.kind]

/-- Nor is a decimal numeral of any form. -/
theorem kind_of_decimal? {negative : Bool} {text : List Char} {read : Value}
    (h : decimal? negative text = some read) : read.kind ≠ "dict" := by
  rw [decimal?] at h
  split at h
  · cases h
  · split at h
    · split at h
      · cases h
      · cases h
        simp [Value.kind]
    · split at h
      · exact kind_of_double? h
      · cases h
    · exact kind_of_double? h

/-- Nor is a number in another base. -/
theorem kind_of_unsigned {signed : Bool} {n : Option Nat} {read : Value}
    (h : token?.unsigned signed n = some read) : read.kind ≠ "dict" := by
  rw [token?.unsigned] at h
  split at h
  · cases h
  · obtain ⟨_, _, rfl⟩ := Option.map_eq_some_iff.1 h
    simp [Value.kind]

/-- Nor is anything that a bare token is read as. -/
theorem kind_of_token? {token : List Char} {read : Value} (h : token? token = some read) :
    read.kind ≠ "dict" := by
  rw [token?] at h
  simp only at h
  split at h
  · split at h <;> cases h
    simp [Value.kind]
  split at h
  · split at h <;> cases h
    simp [Value.kind]
  split at h
  · cases h
    simp [Value.kind]
  split at h
  · cases h
    simp [Value.kind]
  split at h
  · exact kind_of_unsigned h
  · exact kind_of_unsigned h
  · exact kind_of_unsigned h
  · obtain ⟨_, _, hdecimal⟩ := Option.bind_eq_some_iff.1 h
    exact kind_of_decimal? hdecimal

mutual

/-- The tables of a value that is read have distinct keys. -/
theorem distinct_of_value : ∀ {fuel : Nat} {input rest : Input} {read : Value},
    value fuel input = some (read, rest) → read.HasDistinctKeys
  | 0, _, _, _, h => by
    rw [value] at h
    cases h
  | fuel + 1, input, rest, read, h => by
    rw [value.eq_def] at h
    simp only at h
    split at h
    · obtain ⟨_, _, heq⟩ := Option.map_eq_some_iff.1 h
      cases heq
      exact .leaf (by simp [Value.kind])
    split at h
    · obtain ⟨_, _, heq⟩ := Option.map_eq_some_iff.1 h
      cases heq
      exact .leaf (by simp [Value.kind])
    · split at h
      · cases h
        exact .nil
      · obtain ⟨⟨entries, _⟩, hpairs, heq⟩ := Option.map_eq_some_iff.1 h
        cases heq
        exact (distinct_of_pairs .nil hpairs).toValues
    · split at h
      · next hmoment =>
        cases h
        exact .leaf (kind_of_moment hmoment)
      · obtain ⟨_, htoken, heq⟩ := Option.map_eq_some_iff.1 h
        cases heq
        exact .leaf (kind_of_token? htoken)

/-- The pairs of an inline table keep the keys of a table distinct. -/
theorem distinct_of_pairs : ∀ {fuel : Nat} {entries changed : Branches} {input rest : Input},
    entries.HasDistinctKeys → pairs fuel entries input = some (changed, rest) →
      changed.HasDistinctKeys
  | 0, _, _, _, _, _, h => by
    rw [pairs] at h
    cases h
  | fuel + 1, entries, changed, input, rest, hentries, h => by
    rw [pairs] at h
    obtain ⟨⟨⟨dots, key⟩, _⟩, _, h⟩ := Option.bind_eq_some_iff.1 h
    simp only at h
    split at h
    · obtain ⟨⟨read, _⟩, hvalue, h⟩ := Option.bind_eq_some_iff.1 h
      obtain ⟨assigned, hassign, h⟩ := Option.bind_eq_some_iff.1 h
      have hread := distinct_of_value hvalue
      have hassigned := Tree.preserves_assign [] dots key hread hentries hassign
      split at h
      · exact distinct_of_pairs hassigned h
      · cases h
        exact hassigned
      · cases h
    · cases h

end

/-! ## Documents -/

/-- A line of a document keeps the keys of its tables distinct. -/
theorem distinct_of_expression {root changed : Branches} {here there : List String}
    {input rest : Input} (hroot : root.HasDistinctKeys)
    (h : expression root here input = some ((changed, there), rest)) :
    changed.HasDistinctKeys := by
  rw [expression.eq_def] at h
  split at h
  · obtain ⟨⟨⟨path, key⟩, _⟩, _, h⟩ := Option.bind_eq_some_iff.1 h
    simp only at h
    split at h
    · obtain ⟨opened, hopened, h⟩ := Option.bind_eq_some_iff.1 h
      cases h
      exact Tree.preserves_openItem path key hroot hopened
    · cases h
  · obtain ⟨⟨⟨path, key⟩, _⟩, _, h⟩ := Option.bind_eq_some_iff.1 h
    simp only at h
    split at h
    · obtain ⟨opened, hopened, h⟩ := Option.bind_eq_some_iff.1 h
      cases h
      exact Tree.preserves_openTable path key hroot hopened
    · cases h
  · obtain ⟨⟨⟨dots, key⟩, _⟩, _, h⟩ := Option.bind_eq_some_iff.1 h
    simp only at h
    split at h
    · obtain ⟨⟨read, _⟩, hvalue, h⟩ := Option.bind_eq_some_iff.1 h
      obtain ⟨assigned, hassign, h⟩ := Option.bind_eq_some_iff.1 h
      cases h
      exact Tree.preserves_assign here dots key (distinct_of_value hvalue) hroot hassign
    · cases h

/-- Reading line by line keeps keys distinct, as each line adds to the tree by operations that
do. -/
theorem distinct_of_expressions {fuel : Nat} {root changed : Branches} {here : List String}
    {input : Input} (hroot : root.HasDistinctKeys)
    (h : expressions fuel root here input = some changed) : changed.HasDistinctKeys := by
  fun_induction expressions fuel root here input with
  | case1 _ root here input hskip =>
    cases h
    exact hroot
  | case2 root here input hskip => cases h
  | case3 root here input fuel hskip ih =>
    obtain ⟨⟨⟨next, there⟩, _⟩, hexpression, h⟩ := Option.bind_eq_some_iff.1 h
    obtain ⟨_, _, h⟩ := Option.bind_eq_some_iff.1 h
    exact ih _ _ _ (distinct_of_expression hroot hexpression) h

/-- The tables of a document that is read have distinct keys. -/
theorem distinct_of_read? {text : String} {entries : List (String × Value)}
    (h : read? text = some entries) : (Value.table entries).HasDistinctKeys := by
  obtain ⟨root, hroot, rfl⟩ := Option.map_eq_some_iff.1 h
  exact (distinct_of_expressions .nil hroot).toValues

end FactRules.Toml
