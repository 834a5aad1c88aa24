/-!
# Entries of tables

A table is a list of pairs of a key and a value, in the order in which the keys came in.
`Entries.get?` looks a key up and `Entries.put` sets a key, in its place if it is there and at the
end otherwise. `get?_put` and `map_fst_put` say what a write does to the look-ups and to the keys.
-/

namespace FactRules.Entries

variable {κ ν : Type} [DecidableEq κ]

/-- The value of the first entry with the key. -/
def get? (key : κ) : List (κ × ν) → Option ν
  | [] => none
  | (other, value) :: rest => if other = key then some value else get? key rest

/-- The entries with `key` set to `value`. -/
def put (key : κ) (value : ν) : List (κ × ν) → List (κ × ν)
  | [] => [(key, value)]
  | (other, old) :: rest =>
    if other = key then (key, value) :: rest else (other, old) :: put key value rest

/-- A key is found exactly if it is among the keys. -/
theorem isSome_get?_iff {key : κ} {entries : List (κ × ν)} :
    (get? key entries).isSome ↔ key ∈ entries.map Prod.fst := by
  induction entries with
  | nil => simp [get?]
  | cons entry rest ih =>
    obtain ⟨other, value⟩ := entry
    by_cases h : other = key
    · simp [get?, h]
    · have : key ≠ other := fun e => h e.symm
      simp_all [get?]

/-- What is not among the keys is not found. -/
theorem get?_eq_none_iff {key : κ} {entries : List (κ × ν)} :
    get? key entries = none ↔ key ∉ entries.map Prod.fst := by
  rw [← isSome_get?_iff, Option.not_isSome_iff_eq_none]

/-- The keys after a write are the keys before it, and the written key at the end if it is new. -/
theorem map_fst_put (key : κ) (value : ν) (entries : List (κ × ν)) :
    (put key value entries).map Prod.fst =
      if key ∈ entries.map Prod.fst then entries.map Prod.fst
      else entries.map Prod.fst ++ [key] := by
  induction entries with
  | nil => simp [put]
  | cons entry rest ih =>
    obtain ⟨other, old⟩ := entry
    by_cases h : other = key
    · simp [put, h]
    · have hne : key ≠ other := fun e => h e.symm
      simp only [put, h, ↓reduceIte, List.map_cons, ih, List.mem_cons, hne, false_or]
      split <;> simp

/-- Distinct keys stay distinct. -/
theorem nodup_put {entries : List (κ × ν)} (nodup : (entries.map Prod.fst).Nodup) (key : κ)
    (value : ν) : ((put key value entries).map Prod.fst).Nodup := by
  rw [map_fst_put]
  split
  · exact nodup
  · next h =>
    exact List.nodup_append.2 ⟨nodup, by simp, fun a ha b hb e => h (by simp_all)⟩

/-- Later entries are looked at for keys that earlier ones do not have. -/
theorem get?_append (key : κ) (front back : List (κ × ν)) :
    get? key (front ++ back) = (get? key front).or (get? key back) := by
  induction front with
  | nil => rfl
  | cons entry rest ih =>
    obtain ⟨other, value⟩ := entry
    by_cases h : other = key <;> simp [get?, h, ih]

/-- A write leaves no entries but its own and those that were there. -/
theorem of_mem_put {key : κ} {value : ν} {entries : List (κ × ν)} {entry : κ × ν}
    (h : entry ∈ put key value entries) : entry = (key, value) ∨ entry ∈ entries := by
  induction entries with
  | nil => exact .inl (List.mem_singleton.1 h)
  | cons first rest ih =>
    obtain ⟨other, old⟩ := first
    rw [put] at h
    split at h <;> rcases List.mem_cons.1 h with heq | hmem
    · exact .inl heq
    · exact .inr (List.mem_cons_of_mem _ hmem)
    · exact .inr (heq ▸ List.mem_cons_self)
    · exact (ih hmem).imp_right (List.mem_cons_of_mem _)

/-- A write is found under its own key and changes no other look-up. -/
theorem get?_put (key : κ) (value : ν) (entries : List (κ × ν)) (k : κ) :
    get? k (put key value entries) = if key = k then some value else get? k entries := by
  induction entries with
  | nil => simp [put, get?]
  | cons entry rest ih =>
    obtain ⟨other, old⟩ := entry
    by_cases h : other = key
    · subst h; by_cases hk : other = k <;> simp [put, get?, hk]
    · by_cases hk : other = k
      · subst hk; simp [put, get?, h, Ne.symm h]
      · simp [put, get?, h, hk, ih]

/-- Keeping the entries whose keys satisfy `p` keeps exactly their look-ups. -/
theorem get?_filter (p : κ → Bool) (entries : List (κ × ν)) (k : κ) :
    get? k (entries.filter fun entry => p entry.1) = if p k then get? k entries else none := by
  induction entries with
  | nil => simp [get?]
  | cons entry rest ih =>
    obtain ⟨other, value⟩ := entry
    by_cases hk : other = k
    · subst hk
      by_cases hp : p other <;> simp_all [get?]
    · by_cases hp : p other <;> simp_all [get?]

/-- Where keys are distinct, a look-up finds exactly the entries. -/
theorem get?_eq_some_iff {entries : List (κ × ν)} (nodup : (entries.map Prod.fst).Nodup)
    {key : κ} {value : ν} : get? key entries = some value ↔ (key, value) ∈ entries := by
  induction entries with
  | nil => simp [get?]
  | cons entry rest ih =>
    obtain ⟨other, first⟩ := entry
    obtain ⟨hnew, hrest⟩ := List.nodup_cons.1 nodup
    by_cases h : other = key
    · subst h
      have : (other, value) ∉ rest :=
        fun hmem => hnew (List.mem_map.2 ⟨_, hmem, rfl⟩)
      simp [get?, this, eq_comm]
    · simp [get?, h, Ne.symm h, ih hrest]

/-- Entries with distinct keys are known by their keys and what is found under these. -/
theorem ext_get? {a b : List (κ × ν)} (nodup : (a.map Prod.fst).Nodup)
    (hkeys : a.map Prod.fst = b.map Prod.fst) (hget : ∀ key, get? key a = get? key b) : a = b := by
  induction a generalizing b with
  | nil => exact (List.map_eq_nil_iff.1 hkeys.symm).symm
  | cons entry rest ih =>
    cases b with
    | nil => cases hkeys
    | cons other others =>
      obtain ⟨key, value⟩ := entry
      obtain ⟨k, v⟩ := other
      obtain ⟨hnew, hrest⟩ := List.nodup_cons.1 nodup
      obtain ⟨rfl, htail⟩ : key = k ∧ rest.map Prod.fst = others.map Prod.fst := by
        simpa using hkeys
      obtain rfl : value = v := by simpa [get?] using hget key
      refine congrArg _ (ih hrest htail fun found => ?_)
      by_cases heq : key = found
      · subst heq
        rw [get?_eq_none_iff.2 hnew, get?_eq_none_iff.2 (htail ▸ hnew)]
      · simpa [get?, heq] using hget found

/-- A new key goes to the end. -/
theorem put_of_not_mem {key : κ} (value : ν) {entries : List (κ × ν)}
    (h : key ∉ entries.map Prod.fst) : put key value entries = entries ++ [(key, value)] := by
  induction entries with
  | nil => rfl
  | cons entry rest ih =>
    obtain ⟨other, first⟩ := entry
    simp only [List.map_cons, List.mem_cons, not_or] at h
    simp [put, Ne.symm h.1, ih h.2]

end FactRules.Entries
