import FactRules.Entries

/-!
# Maps that keep the order of their keys

An `OrderedMap` is a table of entries with distinct keys, in the order in which the keys came in.
Writing to a key that is present keeps its place; a key that is erased and written again goes to the
end. Looking keys up says all there is to say about a map but its order: `get?_insert`, `get?_erase`
and `get?_eraseWhere` describe the operations by it, `keys_insert` and `keys_eraseWhere` give the
order.
-/

namespace FactRules

/-- Entries with distinct keys, in the order in which the keys came in. -/
structure OrderedMap (κ ν : Type) where
  entries : List (κ × ν)
  nodup_keys : (entries.map Prod.fst).Nodup

namespace OrderedMap

variable {κ ν : Type}

/-- The map without entries. -/
def empty : OrderedMap κ ν := ⟨[], List.nodup_nil⟩

instance : EmptyCollection (OrderedMap κ ν) := ⟨empty⟩
instance : Inhabited (OrderedMap κ ν) := ⟨∅⟩

/-- The keys, in order. -/
def keys (m : OrderedMap κ ν) : List κ := m.entries.map Prod.fst

/-- The number of entries. -/
def size (m : OrderedMap κ ν) : Nat := m.entries.length

/-- Removes the keys that satisfy `p`. -/
def eraseWhere (m : OrderedMap κ ν) (p : κ → Bool) : OrderedMap κ ν where
  entries := m.entries.filter fun entry => !p entry.1
  nodup_keys := m.nodup_keys.sublist (List.filter_sublist.map Prod.fst)

/-- Erasing drops keys and leaves the others in their order. -/
theorem keys_eraseWhere (m : OrderedMap κ ν) (p : κ → Bool) :
    (m.eraseWhere p).keys = m.keys.filter fun key => !p key := by
  simp [keys, eraseWhere, List.filter_map, Function.comp_def]

variable [DecidableEq κ]

/-- The value of a key, if the key is present. -/
def get? (m : OrderedMap κ ν) (key : κ) : Option ν := Entries.get? key m.entries

/-- Whether a key is present. -/
def contains (m : OrderedMap κ ν) (key : κ) : Bool := (m.get? key).isSome

/-- Sets a key to a value. -/
def insert (m : OrderedMap κ ν) (key : κ) (value : ν) : OrderedMap κ ν where
  entries := Entries.put key value m.entries
  nodup_keys := Entries.nodup_put m.nodup_keys key value

/-- Removes a key. -/
def erase (m : OrderedMap κ ν) (key : κ) : OrderedMap κ ν := m.eraseWhere (· = key)

/-! ## What the operations do to look-ups and keys -/

@[simp] theorem get?_empty (key : κ) : (∅ : OrderedMap κ ν).get? key = none := rfl

/-- What is inserted is found under its key, and nothing else changes. -/
theorem get?_insert (m : OrderedMap κ ν) (key : κ) (value : ν) (k : κ) :
    (m.insert key value).get? k = if key = k then some value else m.get? k :=
  Entries.get?_put key value m.entries k

/-- What is erased is not found any more. -/
theorem get?_eraseWhere (m : OrderedMap κ ν) (p : κ → Bool) (k : κ) :
    (m.eraseWhere p).get? k = if p k then none else m.get? k := by
  have h := Entries.get?_filter (fun key => !p key) m.entries k
  by_cases hp : p k <;> simp_all [get?, eraseWhere]

/-- Erasing one key leaves what is found under all others. -/
theorem get?_erase (m : OrderedMap κ ν) (key k : κ) :
    (m.erase key).get? k = if k = key then none else m.get? k := by
  simp [erase, get?_eraseWhere]

/-- Inserting adds one key to those that the map has. -/
theorem contains_insert (m : OrderedMap κ ν) (key : κ) (value : ν) (k : κ) :
    (m.insert key value).contains k = (decide (key = k) || m.contains k) := by
  rw [contains, get?_insert]
  split
  · next heq => rw [decide_eq_true heq]; rfl
  · next hne => rw [decide_eq_false hne]; rfl

/-- Erasing takes one key from those that the map has. -/
theorem contains_erase (m : OrderedMap κ ν) (key k : κ) :
    (m.erase key).contains k = (!decide (key = k) && m.contains k) := by
  rw [contains, get?_erase]
  split
  · next heq => rw [decide_eq_true heq.symm]; rfl
  · next hne => rw [decide_eq_false (Ne.symm hne)]; rfl

theorem mem_keys_iff {m : OrderedMap κ ν} {key : κ} : key ∈ m.keys ↔ m.contains key :=
  Entries.isSome_get?_iff.symm

/-- A new key comes last, and one that the map has keeps its place. -/
theorem keys_insert (m : OrderedMap κ ν) (key : κ) (value : ν) :
    (m.insert key value).keys = if key ∈ m.keys then m.keys else m.keys ++ [key] :=
  Entries.map_fst_put key value m.entries

/-- What is found under a key is the entry with this key, as keys are distinct. -/
theorem get?_eq_some_iff {m : OrderedMap κ ν} {key : κ} {value : ν} :
    m.get? key = some value ↔ (key, value) ∈ m.entries :=
  Entries.get?_eq_some_iff m.nodup_keys

/-- An entry with a new key comes last. -/
theorem entries_insert_of_not_mem {m : OrderedMap κ ν} {key : κ} (h : key ∉ m.keys) (value : ν) :
    (m.insert key value).entries = m.entries ++ [(key, value)] :=
  Entries.put_of_not_mem value h

end OrderedMap

end FactRules
