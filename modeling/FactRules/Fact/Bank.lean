import FactRules.Fact.Store

/-!
# Banks of shared stores

One store may be used in several places at once: in chains, in queries, by keepers, under several
names. A `Bank` holds the stores and a `StoreRef` names one of them, so whoever writes through a
reference is seen through every equal one. A bank has an empty store under each reference that
nothing was put under, which makes `get_put` hold without a condition.
-/

namespace FactRules

/-- The place of a store in a bank. -/
structure StoreRef where
  index : Nat
deriving DecidableEq, Repr

/-- The stores of a host, by reference. -/
structure Bank where
  stores : List FactStore

namespace Bank

/-- The bank without stores. -/
def empty : Bank := ⟨[]⟩

instance : EmptyCollection Bank := ⟨empty⟩
instance : Inhabited Bank := ⟨∅⟩

/-- The list with the store at an index replaced, lengthened by empty stores as far as needed. -/
def putAt (store : FactStore) : Nat → List FactStore → List FactStore
  | 0, [] => [store]
  | 0, _ :: rest => store :: rest
  | i + 1, [] => ∅ :: putAt store i []
  | i + 1, first :: rest => first :: putAt store i rest

/-- The store under a reference. -/
def get (bank : Bank) (ref : StoreRef) : FactStore := bank.stores.getD ref.index ∅

/-- Replaces the store under a reference. -/
def put (bank : Bank) (ref : StoreRef) (store : FactStore) : Bank :=
  ⟨putAt store ref.index bank.stores⟩

/-- Changes the store under a reference. -/
def modify (bank : Bank) (ref : StoreRef) (change : FactStore → FactStore) : Bank :=
  bank.put ref (change (bank.get ref))

/-- A reference under which nothing was put yet. -/
def fresh (bank : Bank) : StoreRef := ⟨bank.stores.length⟩

/-- Adds a store, under a fresh reference. -/
def alloc (bank : Bank) (store : FactStore) : StoreRef × Bank :=
  (bank.fresh, bank.put bank.fresh store)

/-- The stores under the references, as a chain. -/
def chain (bank : Bank) (refs : List StoreRef) : Chain := refs.map bank.get

/-- The store that is put is found at its place, and what stands elsewhere is found as before, also
where the list is made longer by empty stores. -/
theorem getD_putAt (store : FactStore) (i j : Nat) (stores : List FactStore) :
    (putAt store i stores).getD j ∅ = if i = j then store else stores.getD j ∅ := by
  induction i generalizing j stores with
  | zero => cases stores <;> cases j <;> simp [putAt]
  | succ i ih =>
    cases stores with
    | nil =>
      cases j with
      | zero => simp [putAt]
      | succ j => simpa [putAt] using ih j []
    | cons first rest =>
      cases j with
      | zero => simp [putAt]
      | succ j => simpa [putAt] using ih j rest

/-- A write is seen under its own reference and under no other. -/
theorem get_put (bank : Bank) (ref : StoreRef) (store : FactStore) (r : StoreRef) :
    (bank.put ref store).get r = if ref = r then store else bank.get r := by
  obtain ⟨i⟩ := ref
  obtain ⟨j⟩ := r
  simpa [get, put] using getD_putAt store i j bank.stores

/-- A change of one store is seen through its reference and through no other. -/
theorem get_modify (bank : Bank) (ref : StoreRef) (change : FactStore → FactStore)
    (r : StoreRef) :
    (bank.modify ref change).get r = if ref = r then change (bank.get ref) else bank.get r :=
  get_put ..

/-- What nothing was put under yet is empty. -/
@[simp] theorem get_fresh (bank : Bank) : bank.get bank.fresh = ∅ := by
  simp [get, fresh]

/-- A list of stores is made as long as the place that is put needs, and never shorter. -/
theorem length_putAt (store : FactStore) (i : Nat) (stores : List FactStore) :
    (putAt store i stores).length = max (i + 1) stores.length := by
  induction i generalizing stores with
  | zero => cases stores <;> simp [putAt]
  | succ i ih => cases stores <;> simp [putAt, ih]

/-- No write loses a store. -/
theorem length_le_put (bank : Bank) (ref : StoreRef) (store : FactStore) :
    bank.stores.length ≤ (bank.put ref store).stores.length := by
  rw [put, length_putAt]
  exact Nat.le_max_right ..

/-- A store that was put under a reference is in the bank. -/
theorem index_lt_put (bank : Bank) (ref : StoreRef) (store : FactStore) :
    ref.index < (bank.put ref store).stores.length := by
  rw [put, length_putAt]
  exact Nat.lt_of_lt_of_le (Nat.lt_succ_self _) (Nat.le_max_left ..)

end Bank

end FactRules
