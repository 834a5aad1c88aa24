import Mathlib.Data.List.Basic

/-!
# When readings succeed

A reading is a chain of steps that ends at the first fault. These lemmas take a successful reading
apart into its successful steps: `bind_eq_ok` for a step and the rest, `mapM_eq_ok_iff` for a
reading of all items of a list. Where only matters whether a reading succeeds (`Succeeds`), there is
such a lemma for each way to put readings together.
-/

namespace FactRules

variable {ε ζ α β : Type}

/-- One step after another succeeds if both do, the second with what the first gave. -/
theorem bind_eq_ok {x : Except ε α} {f : α → Except ε β} {b : β} :
    x >>= f = .ok b ↔ ∃ a, x = .ok a ∧ f a = .ok b := by
  cases x with
  | error error => exact ⟨nofun, nofun⟩
  | ok a =>
    constructor
    · intro h
      exact ⟨a, rfl, h⟩
    · rintro ⟨_, ⟨⟩, h⟩
      exact h

/-- What is made of a result succeeds with it. -/
theorem map_eq_ok {x : Except ε α} {f : α → β} {b : β} :
    x.map f = .ok b ↔ ∃ a, x = .ok a ∧ f a = b := by
  cases x with
  | error error => exact ⟨nofun, nofun⟩
  | ok a =>
    constructor
    · rintro ⟨⟩
      exact ⟨a, rfl, rfl⟩
    · rintro ⟨_, ⟨⟩, rfl⟩
      rfl

/-- Changing the error leaves what succeeds. -/
theorem mapError_eq_ok {x : Except ε α} {f : ε → ζ} {a : α} : x.mapError f = .ok a ↔ x = .ok a := by
  cases x with
  | error error => exact ⟨nofun, nofun⟩
  | ok b =>
    constructor
    · rintro ⟨⟩
      rfl
    · rintro ⟨⟩
      rfl

/-- Forgetting the error does, too. -/
theorem toOption_eq_some_iff {x : Except ε α} {a : α} : x.toOption = some a ↔ x = .ok a := by
  cases x with
  | error error => exact ⟨nofun, nofun⟩
  | ok b =>
    constructor
    · rintro ⟨⟩
      rfl
    · rintro ⟨⟩
      rfl

/-- All items of a list are read exactly if each of them is. -/
theorem mapM_eq_ok_iff {f : α → Except ε β} {items : List α} {read : List β} :
    items.mapM f = .ok read ↔ items.map (fun item => (f item).toOption) = read.map some := by
  induction items generalizing read with
  | nil =>
    cases read with
    | nil => exact ⟨fun _ => rfl, fun _ => rfl⟩
    | cons b rest => exact ⟨nofun, nofun⟩
  | cons a items ih =>
    rw [List.mapM_cons, bind_eq_ok]
    constructor
    · rintro ⟨b, hb, hitems⟩
      obtain ⟨rest, hrest, ⟨⟩⟩ := bind_eq_ok.1 hitems
      rw [List.map_cons, List.map_cons, ih.1 hrest, toOption_eq_some_iff.2 hb]
    · intro h
      cases read with
      | nil => cases h
      | cons b rest =>
        obtain ⟨hb, hrest⟩ := List.cons.inj h
        refine ⟨b, toOption_eq_some_iff.1 hb, ?_⟩
        exact bind_eq_ok.2 ⟨rest, ih.2 hrest, rfl⟩

/-- Where all items are read, each of them is. -/
theorem exists_of_mapM_eq_ok {f : α → Except ε β} {items : List α} {read : List β}
    (h : items.mapM f = .ok read) {item : α} (hitem : item ∈ items) : ∃ b, f item = .ok b := by
  have hmem : (f item).toOption ∈ read.map some :=
    mapM_eq_ok_iff.1 h ▸ List.mem_map_of_mem hitem
  obtain ⟨b, _, hb⟩ := List.mem_map.1 hmem
  exact ⟨b, toOption_eq_some_iff.1 hb.symm⟩

/-- What items are read as where all of them are read. -/
theorem filterMap_of_mapM_eq_ok {f : α → Except ε β} {items : List α} {read : List β}
    (h : items.mapM f = .ok read) : items.filterMap (fun item => (f item).toOption) = read := by
  have hfilter : (items.map fun item => (f item).toOption).filterMap id = read := by
    rw [mapM_eq_ok_iff.1 h, List.filterMap_map]
    exact List.filterMap_some
  rwa [List.filterMap_map] at hfilter

/-- Where it is known what an item is read as, it is known what all items are read as. -/
theorem eq_map_of_mapM_eq_ok {f : α → Except ε β} {g : α → β} {items : List α} {read : List β}
    (hg : ∀ item b, f item = .ok b → b = g item) (h : items.mapM f = .ok read) :
    read = items.map g := by
  have hsome : ∀ item ∈ items, (f item).toOption = some (g item) := by
    intro item hitem
    obtain ⟨b, hb⟩ := exists_of_mapM_eq_ok h hitem
    rw [← hg item b hb]
    exact toOption_eq_some_iff.2 hb
  rw [← filterMap_of_mapM_eq_ok h, List.filterMap_congr hsome]
  exact congrFun List.filterMap_eq_map' items

/-- If each item is read as by another reading, up to a function of what it is read as, so are all
items of a list. The first fault is the same. -/
theorem mapM_eq_map {γ : Type} {f : α → Except ε β} {g : β → γ} {h : α → Except ε γ}
    {items : List α} (heach : ∀ item ∈ items, h item = (f item).map g) :
    items.mapM h = (items.mapM f).map (List.map g) := by
  induction items with
  | nil => rfl
  | cons item rest ih =>
    obtain ⟨hitem, hrest⟩ := List.forall_mem_cons.1 heach
    rw [List.mapM_cons, List.mapM_cons, hitem, ih hrest]
    cases f item with
    | error error => rfl
    | ok first =>
      cases rest.mapM f with
      | error error => rfl
      | ok others => rfl

/-! ## Whether a reading succeeds -/

/-- A reading gives a result. -/
def Succeeds (x : Except ε α) : Prop := ∃ a, x = .ok a

instance (x : Except ε α) : Decidable (Succeeds x) :=
  match x with
  | .ok a => .isTrue ⟨a, rfl⟩
  | .error _ => .isFalse nofun

@[simp] theorem succeeds_ok {a : α} : Succeeds (.ok a : Except ε α) := ⟨a, rfl⟩

@[simp] theorem not_succeeds_error {error : ε} : ¬ Succeeds (.error error : Except ε α) := nofun

/-- What does not succeed fails with an error. -/
theorem exists_error_iff {x : Except ε α} : (∃ error, x = .error error) ↔ ¬ Succeeds x := by
  cases x with
  | error error => exact ⟨fun _ => not_succeeds_error, fun _ => ⟨error, rfl⟩⟩
  | ok a => exact ⟨nofun, fun h => absurd succeeds_ok h⟩

/-- One step after another succeeds if the first does and the second does with its result. -/
theorem succeeds_bind {x : Except ε α} {f : α → Except ε β} :
    Succeeds (x >>= f) ↔ ∃ a, x = .ok a ∧ Succeeds (f a) := by
  constructor
  · rintro ⟨b, h⟩
    obtain ⟨a, ha, hb⟩ := bind_eq_ok.1 h
    exact ⟨a, ha, b, hb⟩
  · rintro ⟨a, ha, b, hb⟩
    exact ⟨b, bind_eq_ok.2 ⟨a, ha, hb⟩⟩

/-- What is made of a result succeeds if there is one. -/
theorem succeeds_map {x : Except ε α} {f : α → β} : Succeeds (x.map f) ↔ Succeeds x := by
  constructor
  · rintro ⟨b, h⟩
    obtain ⟨a, ha, _⟩ := map_eq_ok.1 h
    exact ⟨a, ha⟩
  · rintro ⟨a, ha⟩
    exact ⟨f a, map_eq_ok.2 ⟨a, ha, rfl⟩⟩

/-- Other errors are errors still. -/
theorem succeeds_mapError {x : Except ε α} {f : ε → ζ} : Succeeds (x.mapError f) ↔ Succeeds x :=
  exists_congr fun _ => mapError_eq_ok

/-- The items of a list can be read if each of them can. -/
theorem succeeds_mapM {f : α → Except ε β} {items : List α} :
    Succeeds (items.mapM f) ↔ ∀ item ∈ items, Succeeds (f item) := by
  constructor
  · rintro ⟨read, h⟩ item hitem
    exact exists_of_mapM_eq_ok h hitem
  · intro h
    induction items with
    | nil => exact ⟨[], rfl⟩
    | cons item rest ih =>
      obtain ⟨first, hfirst⟩ := h item (List.mem_cons_self ..)
      obtain ⟨others, hothers⟩ := ih fun other hmem => h other (List.mem_cons_of_mem _ hmem)
      rw [List.mapM_cons]
      exact ⟨first :: others, bind_eq_ok.2 ⟨first, hfirst, bind_eq_ok.2 ⟨others, hothers, rfl⟩⟩⟩

/-- Where each item is read, nothing is lost of what the items are read as. -/
theorem map_eq_map_ok {f : α → Except ε β} {items : List α}
    (h : ∀ item ∈ items, Succeeds (f item)) :
    items.map f = (items.filterMap fun item => (f item).toOption).map .ok := by
  induction items with
  | nil => rfl
  | cons item rest ih =>
    obtain ⟨first, hfirst⟩ := h item (List.mem_cons_self ..)
    have hsome : (f item).toOption = some first := toOption_eq_some_iff.2 hfirst
    rw [List.filterMap_cons, hsome, List.map_cons, List.map_cons, hfirst,
      ih fun other hmem => h other (List.mem_cons_of_mem _ hmem)]

end FactRules
