import FactRules.Proofs.Query.MostSpecific

/-!
# Facts of a query are only a fallback

A query is built by adding stores and facts to it, in any order. Whatever is found under a key is
the value of the first store that has the key, be it zero or no number; only under keys that no
store has does a fact of the query itself count, the one that was added last (`lookup?_foldl_add`,
`valueFor_congr`). So it matters neither how the additions are interleaved nor what is added under
keys of the stores: `Query.matching_build_eq`.
-/

namespace FactRules

/-! ## What is found under a key -/

/-- A query's own facts are looked at only if no store has the key. -/
theorem valueFor_congr {own other : FactStore} {key : String} {stores : List FactStore}
    (h : (∀ store ∈ stores, store.contains key = false) → own.lookup? key = other.lookup? key) :
    valueFor own key stores = valueFor other key stores := by
  induction stores with
  | nil =>
    have hsame : own.lookup? key = other.lookup? key := h nofun
    rw [valueFor, valueFor, hsame]
  | cons store rest ih =>
    rw [valueFor, valueFor]
    cases hfirst : store.lookup? key with
    | some value => rfl
    | none =>
      have habsent : store.contains key = false := by
        show (store.lookup? key).isSome = false
        rw [hfirst]
        rfl
      exact ih fun hrest => h (List.forall_mem_cons.2 ⟨habsent, hrest⟩)

/-! ## Building a query -/

/-- What is added to a query while it is built. -/
inductive Addition where
  | store (ref : StoreRef)
  | fact (key : String) (value : Double)

namespace Addition

/-- The stores that are added, in order. -/
def stores : List Addition → List StoreRef
  | [] => []
  | .store ref :: rest => ref :: stores rest
  | .fact .. :: rest => stores rest

/-- The value that is added last for a key. -/
def lastFact? (key : String) : List Addition → Option Double
  | [] => none
  | .store _ :: rest => lastFact? key rest
  | .fact k value :: rest => (lastFact? key rest).or (if k = key then some value else none)

end Addition

namespace Query

/-- Adds a store or a fact. -/
def add (query : Query) : Addition → Query
  | .store ref => query.addStore ref
  | .fact key value => query.addFact key value

/-- The query for a concept that is built by additions, one after the other. -/
def build (concept : Concept) (additions : List Addition) : Query :=
  additions.foldl add (ofConcept concept)

/-- Additions of facts and stores leave the concept of a query. -/
theorem concept_foldl_add (query : Query) (additions : List Addition) :
    (additions.foldl add query).concept = query.concept := by
  induction additions generalizing query with
  | nil => rfl
  | cons addition rest ih =>
    rw [List.foldl_cons, ih]
    cases addition with
    | store ref => rfl
    | fact key value => rfl

/-- The stores of a query stand in the order in which they were added. -/
theorem stores_foldl_add (query : Query) (additions : List Addition) :
    (additions.foldl add query).stores = query.stores ++ Addition.stores additions := by
  induction additions generalizing query with
  | nil => simp [Addition.stores]
  | cons addition rest ih =>
    rw [List.foldl_cons, ih]
    cases addition with
    | store ref => simp [add, addStore, Addition.stores]
    | fact key value => rfl

/-- Of the facts that are added for a key the last one counts, and it counts more than what was
there before. -/
theorem lookup?_foldl_add (query : Query) (additions : List Addition) (key : String) :
    (additions.foldl add query).extra.lookup? key =
      ((Addition.lastFact? key additions).map Double.toSingle).or (query.extra.lookup? key) := by
  induction additions generalizing query with
  | nil => rfl
  | cons addition rest ih =>
    rw [List.foldl_cons, ih]
    cases addition with
    | store ref => rfl
    | fact k value =>
      rw [add, addFact, FactStore.lookup?_add, Addition.lastFact?]
      cases Addition.lastFact? key rest with
      | some last => rfl
      | none =>
        by_cases hkey : k = key
        · simp [hkey]
        · simp [hkey]

/-- Two queries for one concept that are built from the same stores in the same order match the
same rules, if for every key that no store has the same value was added last, or none. How the
additions are interleaved does not matter, nor what is added under keys of the stores. -/
theorem matching_build_eq {first second : List Addition} {bank : Bank}
    (hstores : Addition.stores first = Addition.stores second)
    (hfacts : ∀ key, (∀ store ∈ Addition.stores first, (bank.get store).contains key = false) →
      Addition.lastFact? key first = Addition.lastFact? key second)
    (concept : Concept) (rules : RuleSet) :
    (build concept first).matching rules bank = (build concept second).matching rules bank := by
  have hconcept : (build concept first).concept = (build concept second).concept := by
    rw [build, build, concept_foldl_add, concept_foldl_add]
  have hsame : (build concept first).stores = (build concept second).stores := by
    rw [build, build, stores_foldl_add, stores_foldl_add, hstores]
  have hfound : (build concept first).found bank = (build concept second).found bank := by
    funext key
    rw [found, found, hsame]
    refine valueFor_congr fun habsent => ?_
    have hnew : ∀ store ∈ Addition.stores first, (bank.get store).contains key = false := by
      intro store hmem
      rw [hstores] at hmem
      refine habsent _ (List.mem_map_of_mem ?_)
      rw [build, stores_foldl_add]
      exact List.mem_append_right _ hmem
    rw [build, build, lookup?_foldl_add, lookup?_foldl_add, hfacts key hnew]
  rw [matching_eq, matching_eq, answering, answering, hconcept, hfound]

end Query

/-- A store that says that it does not rain, and of which nobody knows what it says of the wind. -/
def calmBank : Bank := ⟨[.ofList [("rain", .zero), ("wind", .nan)]]⟩

/-- Rain and wind are added as facts, before and after the store, and the cold twice. -/
def stormAdditions : List Addition :=
  [.fact "rain" (.ofInt 1), .fact "cold" (.ofInt 3), .store ⟨0⟩, .fact "wind" (.ofInt 1),
    .fact "cold" (.ofInt 1)]

/-- Only the cold is added. -/
def frostAdditions : List Addition := [.store ⟨0⟩, .fact "cold" (.ofInt 1)]

/-- A rule for cold rain, a rule for the cold, and a rule for cold without wind. -/
def winterRules : RuleSet :=
  .ofList [⟨"sleet", ⟨.thinkIdle, [⟨"rain", .ofInt 1, .ofInt 1⟩, ⟨"cold", .ofInt 1, .ofInt 1⟩]⟩,
      ⟨[], []⟩⟩,
    ⟨"frost", ⟨.thinkIdle, [⟨"cold", .ofInt 1, .ofInt 1⟩]⟩, ⟨[], []⟩⟩,
    ⟨"still", ⟨.thinkIdle, [⟨"cold", .ofInt 1, .ofInt 1⟩, ⟨"wind", .zero, .zero⟩]⟩, ⟨[], []⟩⟩]

/-- The zero of the store hides that it rains, and the wind of which it says nothing is neither
there nor absent. -/
theorem storm_matches_as_frost :
    (Addition.stores stormAdditions = Addition.stores frostAdditions ∧
      ∀ key, (∀ store ∈ Addition.stores stormAdditions,
          (calmBank.get store).contains key = false) →
        Addition.lastFact? key stormAdditions = Addition.lastFact? key frostAdditions) ∧
      (Query.build .thinkIdle stormAdditions).matching winterRules calmBank =
        (Query.build .thinkIdle frostAdditions).matching winterRules calmBank ∧
      ((Query.build .thinkIdle frostAdditions).matching winterRules calmBank).map (·.id) =
        ["frost"] := by
  have hfacts : ∀ key, (∀ store ∈ Addition.stores stormAdditions,
      (calmBank.get store).contains key = false) →
        Addition.lastFact? key stormAdditions = Addition.lastFact? key frostAdditions := by
    intro key hnew
    have habsent : (calmBank.get ⟨0⟩).contains key = false := hnew ⟨0⟩ (by decide)
    have hrain : "rain" ≠ key := by
      rintro rfl
      exact absurd habsent (by decide)
    have hwind : "wind" ≠ key := by
      rintro rfl
      exact absurd habsent (by decide)
    simp only [stormAdditions, frostAdditions, Addition.lastFact?, if_neg hrain, if_neg hwind]
    by_cases hcold : "cold" = key
    · simp [hcold]
    · simp [hcold]
  have hstores : Addition.stores stormAdditions = Addition.stores frostAdditions := rfl
  refine ⟨⟨hstores, hfacts⟩, Query.matching_build_eq hstores hfacts .thinkIdle winterRules, ?_⟩
  rw [winterRules, Query.matching_ofList]
  decide +kernel

end FactRules
