import FactRules.Proofs.Keeper.Ledger

/-!
# What an agent sees

The *outlook* of an agent is what of a keeper and its stores concerns the agent: the facts and due
times of the shared store and of its own stores, the queued events that may change them, the time
and the dice (`Keeper.outlook`). It is a small machine of its own: an action for the agent and a
shared fact change it (`Outlook.act`), other agents' facts do not, and taking back what is due needs
no look at what is due for others (`Outlook.expire`).

Where the agent's stores are apart from those of others (`Keeper.Parts`), the outlook after a change
of the ledger is the changed outlook (`outlook_act`, `outlook_applyAll`, `outlook_expire`).
-/

namespace FactRules

/-- Items that change nothing may be left out of a fold. -/
theorem foldl_filter_of_fixed {α β : Type} {f : β → α → β} {p : α → Bool}
    (hfixed : ∀ a, p a = false → ∀ b, f b a = b) (items : List α) (b : β) :
    (items.filter p).foldl f b = items.foldl f b := by
  have hskip : (fun b a => if p a then f b a else b) = f := by
    funext b a
    split
    · rfl
    · next hp => exact (hfixed a (Bool.eq_false_iff.2 hp) b).symm
  rw [List.foldl_filter, hskip]

/-- Whether an action writes a shared fact. -/
def Action.isForEveryone : Action → Bool
  | .addFact .everyone .. => true
  | .addFact .agent .. | .randomText _ => false

/-- Whether an event may change what an agent sees: it is for the agent, or it writes a shared
fact. -/
def Event.concerns (agent : AgentId) (event : Event) : Bool :=
  decide (event.agent = some agent) || event.actions.any Action.isForEveryone

/-- What an agent sees of a keeper and its stores. Its stores come in the order in which it got
them, and `own` is the place of the one that it is registered with. -/
@[ext]
structure Outlook where
  now : Double
  dice : Dice
  waiting : List Event
  shared : FactStore
  stores : List FactStore
  own : Option Nat
  sharedDue : String → Option Double
  ownDue : String → Option Double

namespace Outlook

/-- Writes a shared fact. -/
def writeShared (view : Outlook) (key : String) (value : Double) (due : Option Double) : Outlook :=
  { view with
    shared := view.shared.add key value
    sharedDue := fun other => if key = other then due else view.sharedDue other }

/-- Writes a fact of the agent, if it is registered. -/
def writeOwn (view : Outlook) (key : String) (value : Double) (due : Option Double) : Outlook :=
  match view.own with
  | none => view
  | some place =>
    { view with
      stores := view.stores.modify place (·.add key value)
      ownDue := fun other => if key = other then due else view.ownDue other }

/-- Applies an action that is for the agent or for others. -/
def act (mine : Bool) (view : Outlook) : Action → Outlook
  | .randomText _ => view
  | .addFact .everyone key value ttl => view.writeShared key value (ttl.map view.now.add)
  | .addFact .agent key value ttl =>
    if mine then view.writeOwn key value (ttl.map view.now.add) else view

/-- Applies the actions of an event. -/
def apply (agent : AgentId) (view : Outlook) (event : Event) : Outlook :=
  event.actions.foldl (act (event.agent = some agent)) view

/-- Takes back what is due at a time. -/
def expire (now : Double) (view : Outlook) : Outlook :=
  { view with
    shared := view.shared.removeWhere fun key => (view.sharedDue key).any (·.le now)
    stores :=
      match view.own with
      | none => view.stores
      | some place => view.stores.modify place
          (·.removeWhere fun key => (view.ownDue key).any (·.le now))
    sharedDue := fun key => (view.sharedDue key).filter (!·.le now)
    ownDue := fun key => (view.ownDue key).filter (!·.le now) }

/-- An event that does not concern the agent changes nothing. -/
theorem apply_of_not_concerns {agent : AgentId} {event : Event}
    (h : event.concerns agent = false) (view : Outlook) : view.apply agent event = view := by
  obtain ⟨hother, hactions⟩ := Bool.or_eq_false_iff.1 h
  rw [apply, hother]
  generalize event.actions = actions at hactions
  induction actions with
  | nil => rfl
  | cons action rest ih =>
    rw [List.any_cons, Bool.or_eq_false_iff] at hactions
    cases action with
    | randomText choices => exact ih hactions.2
    | addFact scope key value ttl =>
      cases scope with
      | everyone => cases hactions.1
      | agent => exact ih hactions.2

/-- Of events those that concern the agent need be applied only. -/
theorem foldl_apply_filter (agent : AgentId) (events : List Event) (view : Outlook) :
    (events.filter (·.concerns agent)).foldl (apply agent) view =
      events.foldl (apply agent) view :=
  foldl_filter_of_fixed (fun _ hconcerns view => apply_of_not_concerns hconcerns view) events view

end Outlook

/-! ## Stores in a list -/

/-- The place of one of several different stores is where it is found. -/
theorem idxOf?_eq_some_iff {stores : List StoreRef} (hnodup : stores.Nodup) {store : StoreRef}
    {place : Nat} : stores.idxOf? store = some place ↔ stores[place]? = some store := by
  rw [List.idxOf?_eq_some_iff, List.getElem?_eq_some_iff]
  refine exists_congr fun hlt => and_iff_left_of_imp fun hstore other hother heq => ?_
  have hsame := (List.Nodup.getElem_inj_iff hnodup).1 (heq.trans hstore.symm)
  exact Nat.ne_of_lt hother hsame

/-- Changing one of several different stores changes what is in its place. -/
theorem map_change {stores : List StoreRef} (hnodup : stores.Nodup) {store : StoreRef} {place : Nat}
    (hplace : stores.idxOf? store = some place) (facts : StoreRef → FactStore)
    (change : FactStore → FactStore) :
    stores.map (fun r => if store = r then change (facts store) else facts r) =
      (stores.map facts).modify place change := by
  refine List.ext_getElem? fun i => ?_
  rw [List.getElem?_modify, List.getElem?_map, List.getElem?_map]
  cases hi : stores[i]? with
  | none => rfl
  | some r =>
    have hsame : store = r ↔ place = i := by
      constructor
      · rintro rfl
        exact Option.some.inj (hplace.symm.trans ((idxOf?_eq_some_iff hnodup).2 hi))
      · rintro rfl
        exact Option.some.inj (((idxOf?_eq_some_iff hnodup).1 hplace).symm.trans hi)
    by_cases heq : store = r
    · subst heq
      simp [hsame.1 rfl]
    · have hne : ¬ place = i := fun hplace => heq (hsame.2 hplace)
      simp [heq, hne]

/-- Where a store is not among several ones, changing it changes none of them. -/
theorem map_change_of_not_mem {stores : List StoreRef} {store : StoreRef} (h : store ∉ stores)
    (facts : StoreRef → FactStore) (change : FactStore → FactStore) :
    stores.map (fun r => if store = r then change (facts store) else facts r) =
      stores.map facts := by
  refine List.map_congr_left fun r hr => if_neg ?_
  rintro rfl
  exact h hr

/-! ## The outlook on a keeper -/

namespace Keeper

variable {keeper : Keeper} {agent : AgentId} {stores : List StoreRef} {ledger : Ledger}

/-- What an agent with some stores sees of a keeper with a ledger. -/
def outlook (keeper : Keeper) (agent : AgentId) (stores : List StoreRef) (ledger : Ledger) :
    Outlook where
  now := keeper.now
  dice := keeper.dice
  waiting := keeper.queue.filter (·.concerns agent)
  shared := ledger.facts keeper.shared
  stores := stores.map ledger.facts
  own := (keeper.ownedStore? (some agent)).bind stores.idxOf?
  sharedDue key := ledger.due ⟨key, none⟩
  ownDue key := ledger.due ⟨key, some agent⟩

/-- The stores of an agent are different ones, it is registered with one of them if it is
registered, and they are not shared with others. -/
structure Parts (keeper : Keeper) (agent : AgentId) (stores : List StoreRef) : Prop where
  nodup : stores.Nodup
  shared : keeper.shared ∉ stores
  own : ∀ store, keeper.ownedStore? (some agent) = some store → store ∈ stores
  others : ∀ other ≠ agent, ∀ store, keeper.ownedStore? (some other) = some store →
    store ≠ keeper.shared ∧ store ∉ stores

/-- Whoever is not registered sees no registered store. -/
theorem own_outlook_eq_none (hnew : keeper.ownedStore? (some agent) = none)
    (stores : List StoreRef) (ledger : Ledger) :
    (keeper.outlook agent stores ledger).own = none := by
  rw [outlook, hnew]
  rfl

namespace Parts

/-- Whoever is registered sees the place of the store. -/
theorem exists_own (h : keeper.Parts agent stores) {store : StoreRef}
    (hstore : keeper.ownedStore? (some agent) = some store) (ledger : Ledger) :
    ∃ place, stores.idxOf? store = some place ∧
      (keeper.outlook agent stores ledger).own = some place := by
  obtain ⟨place, hplace⟩ := Option.isSome_iff_exists.1 (List.isSome_idxOf?.2 (h.own store hstore))
  refine ⟨place, hplace, ?_⟩
  rw [outlook, hstore]
  exact hplace

/-- A shared fact that is written is seen. -/
theorem outlook_writeShared (h : keeper.Parts agent stores) (ledger : Ledger) (key : String)
    (value : Double) (due : Option Double) :
    keeper.outlook agent stores (ledger.write none keeper.shared key value due) =
      (keeper.outlook agent stores ledger).writeShared key value due := by
  refine Outlook.ext rfl rfl rfl (if_pos rfl)
    (map_change_of_not_mem h.shared ledger.facts (·.add key value)) rfl (funext fun other => ?_)
    (funext fun other => if_neg nofun)
  exact if_congr (by simp) rfl rfl

/-- A fact of the agent that is written is seen. -/
theorem outlook_writeOwn (h : keeper.Parts agent stores) (ledger : Ledger) {store : StoreRef}
    (hstore : keeper.ownedStore? (some agent) = some store) (key : String) (value : Double)
    (due : Option Double) :
    keeper.outlook agent stores (ledger.write (some agent) store key value due) =
      (keeper.outlook agent stores ledger).writeOwn key value due := by
  obtain ⟨place, hplace, hown⟩ := h.exists_own hstore ledger
  have hne : store ≠ keeper.shared := by
    rintro rfl
    exact h.shared (h.own _ hstore)
  rw [Outlook.writeOwn, hown]
  refine Outlook.ext rfl rfl rfl (if_neg hne)
    (map_change h.nodup hplace ledger.facts (·.add key value)) hown
    (funext fun other => if_neg nofun) (funext fun other => ?_)
  exact if_congr (by simp) rfl rfl

/-- A fact of another agent that is written is not seen. -/
theorem outlook_writeOther (h : keeper.Parts agent stores) (ledger : Ledger) {other : AgentId}
    (hother : other ≠ agent) {store : StoreRef}
    (hstore : keeper.ownedStore? (some other) = some store) (key : String) (value : Double)
    (due : Option Double) :
    keeper.outlook agent stores (ledger.write (some other) store key value due) =
      keeper.outlook agent stores ledger := by
  obtain ⟨hne, hmem⟩ := h.others other hother store hstore
  refine Outlook.ext rfl rfl rfl (if_neg hne)
    (map_change_of_not_mem hmem ledger.facts (·.add key value)) rfl (funext fun _ => if_neg nofun)
    (funext fun _ => if_neg fun heq => ?_)
  exact hother (Option.some.inj (congrArg Retraction.owner heq))

/-- An action changes what the agent sees as the outlook says. -/
theorem outlook_act (h : keeper.Parts agent stores) (ledger : Ledger) (who : Option AgentId)
    (action : Action) :
    keeper.outlook agent stores (ledger.act keeper who action) =
      (keeper.outlook agent stores ledger).act (who = some agent) action := by
  cases action with
  | randomText choices => rfl
  | addFact scope key value ttl =>
    cases scope with
    | everyone => exact h.outlook_writeShared ledger key value _
    | agent =>
      cases who with
      | none => rfl
      | some other =>
        by_cases hother : other = agent
        · subst hother
          simp only [Outlook.act, decide_true, if_true]
          cases hstore : keeper.ownedStore? (some other) with
          | none =>
            simp only [Ledger.act, Scope.owner?, Option.map_some, hstore, Outlook.writeOwn,
              own_outlook_eq_none hstore]
          | some store =>
            simp only [Ledger.act, Scope.owner?, Option.map_some, hstore]
            exact h.outlook_writeOwn ledger hstore key value _
        · have hne : ¬ some other = some agent := fun heq => hother (Option.some.inj heq)
          simp only [Outlook.act, decide_eq_false hne, Bool.false_eq_true, if_false]
          cases hstore : keeper.ownedStore? (some other) with
          | none => simp only [Ledger.act, Scope.owner?, Option.map_some, hstore]
          | some store =>
            simp only [Ledger.act, Scope.owner?, Option.map_some, hstore]
            exact h.outlook_writeOther ledger hother hstore key value _

/-- So does an event. -/
theorem outlook_apply (h : keeper.Parts agent stores) (ledger : Ledger) (event : Event) :
    keeper.outlook agent stores (ledger.apply keeper event) =
      (keeper.outlook agent stores ledger).apply agent event := by
  rw [Ledger.apply, Outlook.apply]
  generalize event.actions = actions
  induction actions generalizing ledger with
  | nil => rfl
  | cons action rest ih =>
    rw [List.foldl_cons, List.foldl_cons, ih, h.outlook_act]

/-- So do the events that concern the agent; others need not be looked at. -/
theorem outlook_applyAll (h : keeper.Parts agent stores) (ledger : Ledger) (events : List Event) :
    keeper.outlook agent stores (events.foldl (Ledger.apply keeper) ledger) =
      (events.filter (·.concerns agent)).foldl (Outlook.apply agent)
        (keeper.outlook agent stores ledger) := by
  rw [Outlook.foldl_apply_filter]
  induction events generalizing ledger with
  | nil => rfl
  | cons event rest ih => rw [List.foldl_cons, List.foldl_cons, ih, h.outlook_apply]

/-- What is taken back from a store is told by the due times of its owner. -/
theorem facts_expire (ledger : Ledger) (now : Double) {store : StoreRef} {owner : Option AgentId}
    (hstore : keeper.ownedStore? owner = some store)
    (honly : ∀ other, keeper.ownedStore? other = some store → other = owner) :
    (ledger.expire keeper now).facts store = (ledger.facts store).removeWhere fun key =>
      (ledger.due ⟨key, owner⟩).any (·.le now) :=
  congrArg (ledger.facts store).removeWhere
    (funext fun key => Ledger.isDue_of_owner hstore honly ledger now key)

/-- Nothing is taken back from a store without an owner. -/
theorem facts_expire_of_unowned (ledger : Ledger) (now : Double) {store : StoreRef}
    (h : ∀ owner, keeper.ownedStore? owner ≠ some store) :
    (ledger.expire keeper now).facts store = ledger.facts store := by
  refine Eq.trans ?_ (FactStore.removeWhere_false _)
  refine congrArg (ledger.facts store).removeWhere (funext fun key => ?_)
  refine Bool.eq_false_iff.2 fun hdue => ?_
  obtain ⟨owner, howner, _⟩ := Ledger.isDue_iff.1 hdue
  exact h owner howner

/-- The stores of an agent belong to the agent, if to anyone. -/
theorem owner_eq (h : keeper.Parts agent stores) {store : StoreRef} (hmem : store ∈ stores)
    {owner : Option AgentId} (howner : keeper.ownedStore? owner = some store) :
    owner = some agent := by
  cases owner with
  | none =>
    cases howner
    exact absurd hmem h.shared
  | some other =>
    by_cases hother : other = agent
    · rw [hother]
    · exact absurd hmem (h.others other hother store howner).2

/-- The shared store belongs to nobody in particular. -/
theorem owner_eq_none (h : keeper.Parts agent stores) {owner : Option AgentId}
    (howner : keeper.ownedStore? owner = some keeper.shared) : owner = none := by
  cases owner with
  | none => rfl
  | some other =>
    by_cases hother : other = agent
    · subst hother
      exact absurd (h.own _ howner) h.shared
    · exact absurd rfl (h.others other hother _ howner).1

/-- Taking back what is due changes what the agent sees as the outlook says. -/
theorem outlook_expire (h : keeper.Parts agent stores) (ledger : Ledger) (now : Double) :
    keeper.outlook agent stores (ledger.expire keeper now) =
      (keeper.outlook agent stores ledger).expire now := by
  refine Outlook.ext rfl rfl rfl ?_ ?_ rfl rfl rfl
  · exact facts_expire ledger now rfl fun other => h.owner_eq_none
  · cases hstore : keeper.ownedStore? (some agent) with
    | none =>
      rw [Outlook.expire, own_outlook_eq_none hstore]
      refine List.map_congr_left fun store hmem => facts_expire_of_unowned ledger now ?_
      intro owner howner
      rw [h.owner_eq hmem howner, hstore] at howner
      cases howner
    | some own =>
      obtain ⟨place, hplace, hown⟩ := h.exists_own hstore ledger
      rw [Outlook.expire, hown]
      refine Eq.trans (List.map_congr_left fun store hmem => ?_)
        (map_change h.nodup hplace ledger.facts _)
      split
      · next heq =>
        subst heq
        exact facts_expire ledger now hstore fun other => h.owner_eq (h.own _ hstore)
      · next hne =>
        refine facts_expire_of_unowned ledger now fun owner howner => hne ?_
        rw [h.owner_eq hmem howner, hstore] at howner
        exact Option.some.inj howner

end Parts

end Keeper

end FactRules
