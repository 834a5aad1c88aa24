import FactRules.Keeper.Site
import FactRules.Proofs.Schedule.DueTime

/-!
# The fate of a fact

What a site holds of a key of an owner is the *fate* of the fact: its value, if it is present, and
the time at which it is to be taken back, if it is to be (`Site.fate`). On an orderly site
(`Site.Orderly`) no two owners share a store, and each operation is described by what it does to
fates: a write sets the fate of its own fact alone (`Orderly.write`), a tick ends the fates that are
due (`Orderly.expire`), and registering and unregistering an agent begin and end the fates of its
facts alone (`Orderly.register`, `Orderly.unregister`).

Nobody may be registered and unregistered like an agent. A store that is registered for nobody is no
owner's; but what is to be taken back from the shared store is kept under nobody, so unregistering
nobody calls it off (`Fate.left`).
-/

namespace FactRules

/-- The store that facts of an owner are written to: the shared one if there is no owner. -/
def Keeper.ownedStore? (keeper : Keeper) : Option AgentId → Option StoreRef
  | none => some keeper.shared
  | some agent => keeper.agents.get? (some agent)

/-- Registering an agent gives it its store and changes no other. A store that is registered for
nobody belongs to no owner. -/
theorem Keeper.ownedStore?_insert (keeper : Keeper) (agent : Option AgentId) (store : StoreRef)
    (owner : Option AgentId) :
    Keeper.ownedStore? { keeper with agents := keeper.agents.insert agent store } owner =
      if owner = agent ∧ agent.isSome then some store else keeper.ownedStore? owner := by
  cases owner with
  | none =>
    rw [if_neg]
    · rfl
    · rintro ⟨rfl, hsome⟩
      cases hsome
  | some other =>
    refine (OrderedMap.get?_insert ..).trans (if_congr ?_ rfl rfl)
    constructor
    · rintro rfl
      exact ⟨rfl, rfl⟩
    · exact fun h => h.1.symm

/-- Unregistering an agent takes its store and changes no other, whatever is to be taken back.
Unregistering nobody takes no owner's store. -/
theorem Keeper.ownedStore?_erase (keeper : Keeper) (agent : Option AgentId)
    (retractions : Schedule Retraction) (owner : Option AgentId) :
    Keeper.ownedStore? { keeper with agents := keeper.agents.erase agent, retractions } owner =
      if owner = agent ∧ agent.isSome then none else keeper.ownedStore? owner := by
  cases owner with
  | none =>
    rw [if_neg]
    · rfl
    · rintro ⟨rfl, hsome⟩
      cases hsome
  | some other =>
    refine (OrderedMap.get?_erase ..).trans (if_congr ?_ rfl rfl)
    constructor
    · rintro rfl
      exact ⟨rfl, rfl⟩
    · exact fun h => h.1

/-! ## Taking facts out of a store -/

namespace FactStore

/-- Removes the facts whose keys pass a test. -/
def removeWhere (store : FactStore) (p : String → Bool) : FactStore := ⟨store.facts.eraseWhere p⟩

/-- What is removed is not found any more, and all else is found as before. -/
theorem lookup?_removeWhere (store : FactStore) (p : String → Bool) (key : String) :
    (store.removeWhere p).lookup? key = if p key then none else store.lookup? key :=
  store.facts.get?_eraseWhere p key

/-- Removing nothing leaves a store. -/
theorem removeWhere_false (store : FactStore) : store.removeWhere (fun _ => false) = store := by
  simp [removeWhere, OrderedMap.eraseWhere]

/-- Removing twice removes what passes one of the tests. -/
theorem removeWhere_removeWhere (store : FactStore) (p q : String → Bool) :
    (store.removeWhere p).removeWhere q = store.removeWhere fun key => p key || q key := by
  simp only [removeWhere, OrderedMap.eraseWhere, List.filter_filter, Bool.not_or, Bool.and_comm]

end FactStore

/-- The value of a fact, if it is present, and when it is to be taken back, if it is to be. -/
structure Fate where
  value : Option Single
  due : Option Double
deriving DecidableEq

namespace Fate

/-- The fate of a fact that is absent. -/
def absent : Fate := ⟨none, none⟩

/-- What a tick makes of a fate: a fact that is due is taken back. -/
def expire (now : Double) (fate : Fate) : Fate where
  value := if fate.due.any (·.le now) then none else fate.value
  due := fate.due.filter (!·.le now)

/-- What is left of a fate when its owner is unregistered: nothing of an agent's fact; a shared fact
stays as it is and is not to be taken back any more. -/
def left : Option AgentId → Fate → Fate
  | none, fate => { fate with due := none }
  | some _, _ => absent

/-- A tick at the due time or later ends the fate. -/
theorem expire_of_le {value : Option Single} {due now : Double} (h : due.le now = true) :
    expire now ⟨value, some due⟩ = absent := by
  simp [expire, absent, h, Option.filter_some]

/-- A tick before the due time keeps the fate. -/
theorem expire_of_not_le {value : Option Single} {due now : Double} (h : ¬ due.le now = true) :
    expire now ⟨value, some due⟩ = ⟨value, some due⟩ := by
  simp [expire, h, Option.filter_some]

/-- A fate that is not to end outlasts every tick. -/
theorem expire_of_due_eq_none {fate : Fate} (h : fate.due = none) (now : Double) :
    expire now fate = fate := by
  obtain ⟨value, due⟩ := fate
  obtain rfl : due = none := h
  rfl

end Fate

namespace Site

variable {site : Site}

/-- What a site holds of a key of an owner. -/
def fate (site : Site) (owner : Option AgentId) (key : String) : Fate where
  value := (site.keeper.ownedStore? owner).bind fun store => (site.bank.get store).lookup? key
  due := site.keeper.retractions.dueTime? ⟨key, owner⟩

/-- A store of the bank that is neither shared nor registered. -/
def IsFree (site : Site) (store : StoreRef) : Prop :=
  store.index < site.bank.stores.length ∧ store ≠ site.keeper.shared ∧
    store ∉ site.keeper.agents.entries.map Prod.snd

instance (store : StoreRef) : Decidable (site.IsFree store) :=
  inferInstanceAs (Decidable (store.index < site.bank.stores.length ∧ store ≠ site.keeper.shared ∧
    store ∉ site.keeper.agents.entries.map Prod.snd))

/-- A free store is no owner's. -/
theorem IsFree.ownedStore?_ne {store : StoreRef} (h : site.IsFree store) (owner : Option AgentId) :
    site.keeper.ownedStore? owner ≠ some store := by
  intro howner
  cases owner with
  | none =>
    cases howner
    exact h.2.1 rfl
  | some agent =>
    exact h.2.2 (List.mem_map.2 ⟨_, OrderedMap.get?_eq_some_iff.1 howner, rfl⟩)

/-- What the store holds that an agent is registered with. -/
def offered (site : Site) : Option StoreRef → FactStore
  | some store => site.bank.get store
  | none => ∅

/-! ## What single operations do -/

/-- A step that succeeds and keeps an invariant on each item does so on the items in turn. The
invariant may follow a record that each item adds to. -/
theorem forEach_ok {α β : Type} {step : Site → α → Result} {note : β → α → β}
    (Inv : Site → β → Prop) {items : List α}
    (hstep : ∀ site past, ∀ item ∈ items, Inv site past →
      ∃ after notices, step site item = .ok (after, notices) ∧ Inv after (note past item))
    {site : Site} {past : β} (h : Inv site past) :
    ∃ after notices, forEach step site items = .ok (after, notices) ∧
      Inv after (items.foldl note past) := by
  induction items generalizing site past with
  | nil => exact ⟨site, [], rfl, h⟩
  | cons item rest ih =>
    obtain ⟨next, first, hfirst, hnext⟩ := hstep site past item (List.mem_cons_self ..) h
    obtain ⟨after, others, hrest, hafter⟩ := ih
      (fun site past item hmem => hstep site past item (List.mem_cons_of_mem _ hmem)) hnext
    refine ⟨after, first ++ others, ?_, hafter⟩
    rw [forEach, hfirst]
    simp only [bind, Except.bind, hrest]
    rfl

/-- Writing a fact never fails: what was scheduled for it was called off before. -/
theorem write_ok (h : site.keeper.retractions.Sound) (owner : Option AgentId) (store : StoreRef)
    (key : String) (value : Double) (ttl : Option Double) :
    ∃ retractions notices, site.write owner store key value ttl = .ok
        (⟨{ site.keeper with retractions }, site.bank.modify store (·.add key value)⟩, notices) ∧
      retractions.Sound ∧
      (∀ retraction, retractions.dueTime? retraction =
        if ⟨key, owner⟩ = retraction then ttl.map site.keeper.now.add
        else site.keeper.retractions.dueTime? retraction) ∧
      (site.keeper.retractions.Timely →
        (∀ seconds ∈ ttl, (site.keeper.now.add seconds).isNan = false) → retractions.Timely) := by
  obtain ⟨hcancel, hdue⟩ := h.cancel ⟨key, owner⟩
  cases ttl with
  | none =>
    refine ⟨_, _, rfl, hcancel, fun retraction => ?_, fun ht _ => ht.cancelAll [_]⟩
    rw [hdue]
    rfl
  | some seconds =>
    obtain ⟨retractions, hpush, hsound, hpushed, htimely⟩ :=
      hcancel.push (site.keeper.now.add seconds) ((hdue _).trans (if_pos rfl))
    refine ⟨retractions, [.expiryScheduled key owner seconds], ?_, hsound, fun retraction => ?_,
      fun ht hnan => htimely (ht.cancelAll [_]) (hnan seconds rfl)⟩
    · simp only [write, hpush]
    · rw [hpushed, hdue]
      split
      · rfl
      · rfl

/-- Whoever has no store yet is registered with the given one or a new one, and no store changes. -/
theorem register_ok {agent : Option AgentId} (hnew : site.keeper.agents.get? agent = none)
    (store : Option StoreRef) :
    ∃ bank, site.register agent store = .ok
        (⟨{ site.keeper with
          agents := site.keeper.agents.insert agent (store.getD site.bank.fresh) }, bank⟩,
        store.getD site.bank.fresh) ∧
      (∀ r, bank.get r = site.bank.get r) ∧ site.bank.stores.length ≤ bank.stores.length ∧
      (store = none → site.bank.fresh.index < bank.stores.length) := by
  have hcontains : site.keeper.agents.contains agent = false := by
    rw [OrderedMap.contains, hnew]
    rfl
  cases store with
  | some ref =>
    refine ⟨site.bank, ?_, fun r => rfl, Nat.le_refl _, fun h => by cases h⟩
    rw [register, hcontains]
    rfl
  | none =>
    refine ⟨site.bank.put site.bank.fresh ∅, ?_, fun r => ?_, Bank.length_le_put ..,
      fun _ => Bank.index_lt_put ..⟩
    · rw [register, hcontains]
      rfl
    · rw [Bank.get_put]
      split
      · next heq => rw [← heq, Bank.get_fresh]
      · rfl

/-- Whoever has a store loses it, and what was to be taken back from it is called off. -/
theorem unregister_ok (h : site.keeper.retractions.Sound) {agent : Option AgentId}
    {store : StoreRef} (hstore : site.keeper.agents.get? agent = some store) :
    ∃ retractions, site.keeper.unregister agent = .ok
        { site.keeper with agents := site.keeper.agents.erase agent, retractions } ∧
      retractions.Sound ∧ (site.keeper.retractions.Timely → retractions.Timely) ∧
      ∀ retraction, retractions.dueTime? retraction =
        if retraction.owner = agent then none
        else site.keeper.retractions.dueTime? retraction := by
  obtain ⟨hsound, hdue⟩ := h.cancelWhere (·.owner = agent)
  refine ⟨_, ?_, hsound, fun ht => ht.cancelAll _, ?_⟩
  · rw [Keeper.unregister, Keeper.storeOf, hstore]
    rfl
  · simpa only [decide_eq_true_eq] using hdue

/-- A response that is given is one of a rule of the set. Responding changes no fact: it draws, and
queues the actions for now of the response, if there is one. -/
theorem respond_cases {rules : RuleSet} {concept : Concept} {agent : Option AgentId}
    {extra : List (String × Double)} {after : Site} {reply : Reply}
    (h : site.respond rules concept agent extra = .ok (after, reply)) :
    ∃ dice, reply.response = none ∧ after = ⟨{ site.keeper with dice }, site.bank⟩ ∨
      ∃ rule ∈ rules.rules, reply.response = some rule.response ∧
        after = ⟨{ site.keeper with
          queue := site.keeper.queue ++ [⟨rule.response.now, agent⟩], dice }, site.bank⟩ := by
  rw [respond] at h
  cases hquery : site.keeper.query concept agent with
  | error error =>
    rw [hquery] at h
    cases h
  | ok query =>
    rw [hquery] at h
    simp only [bind, Except.bind] at h
    split at h
    · next hnone =>
      cases h
      exact ⟨_, .inl ⟨rfl, rfl⟩⟩
    · next response hsome =>
      cases h
      obtain ⟨rule, hrule, rfl⟩ := Query.mem_of_run hsome
      exact ⟨_, .inr ⟨rule, hrule, rfl, rfl⟩⟩

/-- A fact of an owner that has a store is taken back from it. -/
theorem retract_ok {retraction : Retraction} {store : StoreRef}
    (hstore : site.keeper.ownedStore? retraction.owner = some store) :
    site.retract retraction =
      .ok (⟨site.keeper, site.bank.modify store (·.remove retraction.key)⟩,
        [.expired retraction.key retraction.owner]) := by
  obtain ⟨key, owner⟩ := retraction
  cases owner with
  | none =>
    cases hstore
    rfl
  | some agent =>
    have hget : site.keeper.agents.get? (some agent) = some store := hstore
    simp only [retract, Keeper.storeOf, hget]
    rfl

/-- Facts of owners that have stores are taken back from these stores. What a store holds of other
keys stays, in its order. -/
theorem forEach_retract_eq {due : List Retraction}
    (hdue : ∀ retraction ∈ due, (site.keeper.ownedStore? retraction.owner).isSome) :
    ∃ bank notices, forEach retract site due = .ok (⟨site.keeper, bank⟩, notices) ∧
      site.bank.stores.length ≤ bank.stores.length ∧
      ∀ store, bank.get store = (site.bank.get store).removeWhere fun key =>
        due.any fun retraction => decide
          (site.keeper.ownedStore? retraction.owner = some store ∧ retraction.key = key) := by
  induction due generalizing site with
  | nil =>
    exact ⟨site.bank, [], rfl, Nat.le_refl _, fun store => (FactStore.removeWhere_false _).symm⟩
  | cons first rest ih =>
    obtain ⟨target, htarget⟩ := Option.isSome_iff_exists.1 (hdue first (List.mem_cons_self ..))
    let next : Site := ⟨site.keeper, site.bank.modify target (·.remove first.key)⟩
    have hothers : ∀ retraction ∈ rest, (next.keeper.ownedStore? retraction.owner).isSome :=
      fun retraction hmem => hdue retraction (List.mem_cons_of_mem _ hmem)
    obtain ⟨bank, notices, hrest, hlength, hbank⟩ := ih hothers
    dsimp only [next] at hrest hlength hbank
    refine ⟨bank, .expired first.key first.owner :: notices, ?_,
      Nat.le_trans (Bank.length_le_put ..) hlength, fun store => ?_⟩
    · rw [forEach, retract_ok htarget]
      simp only [bind, Except.bind, hrest]
      rfl
    · have hfirst : (site.bank.modify target (·.remove first.key)).get store =
          (site.bank.get store).removeWhere fun key => decide
            (site.keeper.ownedStore? first.owner = some store ∧ first.key = key) := by
        rw [Bank.get_modify, htarget]
        by_cases hstore : target = store
        · rw [if_pos hstore, hstore, FactStore.remove]
          simp [FactStore.removeWhere, OrderedMap.erase, eq_comm]
        · rw [if_neg hstore]
          simp [hstore, FactStore.removeWhere_false]
      rw [hbank, hfirst, FactStore.removeWhere_removeWhere]
      rfl

/-- Facts of owners that have stores are taken back from these stores, and nothing else is. -/
theorem forEach_retract_ok {due : List Retraction}
    (hdue : ∀ retraction ∈ due, (site.keeper.ownedStore? retraction.owner).isSome) :
    ∃ bank notices, forEach retract site due = .ok (⟨site.keeper, bank⟩, notices) ∧
      site.bank.stores.length ≤ bank.stores.length ∧
      ∀ store key, (bank.get store).lookup? key =
        if ∃ retraction ∈ due, site.keeper.ownedStore? retraction.owner = some store ∧
          retraction.key = key then none
        else (site.bank.get store).lookup? key := by
  obtain ⟨bank, notices, hretract, hlength, hbank⟩ := forEach_retract_eq hdue
  refine ⟨bank, notices, hretract, hlength, fun store key => ?_⟩
  rw [hbank, FactStore.lookup?_removeWhere]
  refine if_congr ?_ rfl rfl
  simp only [List.any_eq_true, decide_eq_true_eq]

/-! ## What becomes of the fates on an orderly site -/

/-- The schedule of retractions is in order, each owner has a store of the bank to itself, and only
facts of owners with stores are to be taken back. -/
structure Orderly (site : Site) : Prop where
  sound : site.keeper.retractions.Sound
  timely : site.keeper.retractions.Timely
  distinct : ∀ {owner other store}, site.keeper.ownedStore? owner = some store →
    site.keeper.ownedStore? other = some store → owner = other
  held : ∀ {owner store}, site.keeper.ownedStore? owner = some store →
    store.index < site.bank.stores.length
  owned : ∀ retraction, (site.keeper.retractions.dueTime? retraction).isSome →
    (site.keeper.ownedStore? retraction.owner).isSome

namespace Orderly

/-- A keeper without agents is in order if its store is in the bank. -/
theorem ofShared {shared : StoreRef} {bank : Bank} (hshared : shared.index < bank.stores.length)
    (dice : Dice) : Orderly ⟨.ofShared shared dice, bank⟩ where
  sound := .empty
  timely := .empty
  distinct {owner other store} howner hother := by
    cases owner with
    | none =>
      cases other with
      | none => rfl
      | some agent => cases hother
    | some agent => cases howner
  held {owner store} howner := by
    cases owner with
    | none =>
      cases howner
      exact hshared
    | some agent => cases howner
  owned retraction hsome := by cases hsome

/-- A change of an owner's store is seen by this owner alone. -/
theorem lookup?_modify (h : site.Orderly) {owner : Option AgentId} {store : StoreRef}
    (hstore : site.keeper.ownedStore? owner = some store) (change : FactStore → FactStore)
    (other : Option AgentId) (key : String) :
    ((site.keeper.ownedStore? other).bind fun r =>
        ((site.bank.modify store change).get r).lookup? key) =
      if owner = other then (change (site.bank.get store)).lookup? key
      else (site.fate other key).value := by
  by_cases howner : owner = other
  · subst howner
    rw [if_pos rfl, hstore, Option.bind_some, Bank.get_modify, if_pos rfl]
  · rw [if_neg howner, fate]
    refine Option.bind_congr fun r hr => ?_
    rw [Bank.get_modify, if_neg]
    intro heq
    exact howner (h.distinct hstore (heq ▸ hr))

/-- Writing a fact of an owner sets its fate and no other. -/
theorem write (h : site.Orderly) {owner : Option AgentId} {store : StoreRef}
    (hstore : site.keeper.ownedStore? owner = some store) (key : String) (value : Double)
    {ttl : Option Double}
    (htimed : ∀ seconds ∈ ttl, (site.keeper.now.add seconds).isNan = false) :
    ∃ after notices, site.write owner store key value ttl = .ok (after, notices) ∧
      after.keeper = { site.keeper with retractions := after.keeper.retractions } ∧
      after.Orderly ∧
      ∀ other k, after.fate other k =
        if owner = other ∧ key = k then ⟨some value.toSingle, ttl.map site.keeper.now.add⟩
        else site.fate other k := by
  obtain ⟨retractions, notices, hwrite, hsound, hdue, htimely⟩ :=
    write_ok h.sound owner store key value ttl
  refine ⟨_, notices, hwrite, rfl, ⟨hsound, htimely h.timely htimed, h.distinct,
    fun hother => Nat.lt_of_lt_of_le (h.held hother) (Bank.length_le_put ..),
    fun retraction hsome => ?_⟩, fun other k => ?_⟩
  · rw [hdue] at hsome
    split at hsome
    · next heq =>
      subst heq
      exact Option.isSome_iff_exists.2 ⟨store, hstore⟩
    · exact h.owned retraction hsome
  · have hvalue := h.lookup?_modify hstore (·.add key value) other k
    have hfactDue := hdue ⟨k, other⟩
    rw [FactStore.lookup?_add] at hvalue
    by_cases hfact : owner = other ∧ key = k
    · obtain ⟨rfl, rfl⟩ := hfact
      rw [if_pos rfl, if_pos rfl] at hvalue
      rw [if_pos rfl] at hfactDue
      rw [if_pos ⟨rfl, rfl⟩]
      exact congrArg₂ Fate.mk hvalue hfactDue
    · rw [if_neg fun heq => hfact ⟨congrArg Retraction.owner heq, congrArg Retraction.key heq⟩]
        at hfactDue
      rw [if_neg hfact]
      refine congrArg₂ Fate.mk (hvalue.trans ?_) hfactDue
      by_cases howner : owner = other
      · subst howner
        rw [if_pos rfl, if_neg fun hkey => hfact ⟨rfl, hkey⟩, hstore]
        rfl
      · rw [if_neg howner]
        rfl

/-- Taking back what is due ends the fates whose time has come and keeps the others. -/
theorem expire (h : site.Orderly) (now : Double) :
    ∃ after notices,
      forEach retract
          ⟨{ site.keeper with retractions := (site.keeper.retractions.popDue now).2 }, site.bank⟩
          (site.keeper.retractions.popDue now).1 = .ok (after, notices) ∧
      after.keeper = { site.keeper with retractions := after.keeper.retractions } ∧
      after.Orderly ∧ ∀ owner key, after.fate owner key = (site.fate owner key).expire now := by
  obtain ⟨hsound, htimely, hpopped, hdue⟩ := h.sound.popDue h.timely now
  let popped : Site :=
    ⟨{ site.keeper with retractions := (site.keeper.retractions.popDue now).2 }, site.bank⟩
  have howned : ∀ retraction ∈ (site.keeper.retractions.popDue now).1,
      (popped.keeper.ownedStore? retraction.owner).isSome := by
    intro retraction hmem
    obtain ⟨time, htime, _⟩ := (hpopped retraction).1 hmem
    exact h.owned retraction (Option.isSome_iff_exists.2 ⟨time, htime⟩)
  obtain ⟨bank, notices, hretract, hlength, hbank⟩ := forEach_retract_ok howned
  refine ⟨_, notices, hretract, rfl, ⟨hsound, htimely, h.distinct,
    fun howner => Nat.lt_of_lt_of_le (h.held howner) hlength, fun retraction hsome => ?_⟩,
    fun owner key => ?_⟩
  · rw [hdue] at hsome
    exact h.owned retraction (Option.isSome_of_isSome_filter _ _ hsome)
  · have htaken : ∀ store, site.keeper.ownedStore? owner = some store →
        ((∃ retraction ∈ (site.keeper.retractions.popDue now).1,
            site.keeper.ownedStore? retraction.owner = some store ∧ retraction.key = key) ↔
          (site.fate owner key).due.any (·.le now) = true) := by
      intro store hstore
      rw [Option.any_eq_true]
      constructor
      · rintro ⟨retraction, hmem, hother, rfl⟩
        obtain rfl := h.distinct hother hstore
        exact (hpopped retraction).1 hmem
      · intro htime
        exact ⟨⟨key, owner⟩, (hpopped _).2 htime, hstore, rfl⟩
    refine congrArg₂ Fate.mk ?_ (hdue ⟨key, owner⟩)
    split
    · next hany =>
      refine Option.bind_eq_none_iff.2 fun store hstore => ?_
      exact (hbank store key).trans (if_pos ((htaken store hstore).2 hany))
    · next hlate =>
      refine Option.bind_congr fun store hstore => ?_
      exact (hbank store key).trans (if_neg fun hmem => hlate ((htaken store hstore).1 hmem))

/-- A store of the bank that no owner has can be registered for whoever is new: the fates of an
agent's facts begin as the store has them. The bank may have grown by the store. -/
theorem insert (h : site.Orderly) {agent : Option AgentId} {store : StoreRef} {bank : Bank}
    (hnew : site.keeper.agents.get? agent = none)
    (hfree : ∀ owner, site.keeper.ownedStore? owner ≠ some store)
    (hbank : ∀ r, bank.get r = site.bank.get r)
    (hlength : site.bank.stores.length ≤ bank.stores.length)
    (hstore : store.index < bank.stores.length) :
    Orderly ⟨{ site.keeper with agents := site.keeper.agents.insert agent store }, bank⟩ ∧
      ∀ owner key,
        fate ⟨{ site.keeper with agents := site.keeper.agents.insert agent store }, bank⟩ owner
            key =
          if owner = agent ∧ agent.isSome then ⟨(site.bank.get store).lookup? key, none⟩
          else site.fate owner key := by
  have howned := site.keeper.ownedStore?_insert agent store
  refine ⟨⟨h.sound, h.timely, ?_, ?_, ?_⟩, fun owner key => ?_⟩
  · intro owner other r howner hother
    rw [howned] at howner hother
    split at howner <;> split at hother
    · next heq heq' => exact heq.1.trans heq'.1.symm
    · cases howner
      exact absurd hother (hfree other)
    · cases hother
      exact absurd howner (hfree owner)
    · exact h.distinct howner hother
  · intro owner r howner
    rw [howned] at howner
    split at howner
    · cases howner
      exact hstore
    · exact Nat.lt_of_lt_of_le (h.held howner) hlength
  · intro retraction hsome
    rw [howned]
    split
    · rfl
    · exact h.owned retraction hsome
  · simp only [fate, howned, hbank]
    split
    · next heq =>
      obtain ⟨rfl, hsome⟩ := heq
      obtain ⟨id, rfl⟩ := Option.isSome_iff_exists.1 hsome
      refine congrArg (Fate.mk _) (Option.eq_none_iff_forall_ne_some.2 fun time htime => ?_)
      have hstored := h.owned ⟨key, some id⟩ (Option.isSome_iff_exists.2 ⟨time, htime⟩)
      rw [Keeper.ownedStore?, hnew] at hstored
      cases hstored
    · rfl

/-- Registering an agent begins the fates of its facts and keeps the others. Registering nobody
keeps all. -/
theorem register (h : site.Orderly) {agent : Option AgentId}
    (hnew : site.keeper.agents.get? agent = none) {store : Option StoreRef}
    (hfree : ∀ ref ∈ store, site.IsFree ref) :
    ∃ after ref, site.register agent store = .ok (after, ref) ∧
      after.keeper = { site.keeper with agents := site.keeper.agents.insert agent ref } ∧
      after.Orderly ∧
      ∀ owner key, after.fate owner key =
        if owner = agent ∧ agent.isSome then ⟨(site.offered store).lookup? key, none⟩
        else site.fate owner key := by
  obtain ⟨bank, hregister, hbank, hlength, hfresh⟩ := register_ok hnew store
  cases store with
  | some ref =>
    have href := hfree ref rfl
    obtain ⟨horderly, hfate⟩ := h.insert hnew href.ownedStore?_ne hbank hlength
      (Nat.lt_of_lt_of_le href.1 hlength)
    exact ⟨_, ref, hregister, rfl, horderly, hfate⟩
  | none =>
    have hunowned : ∀ owner, site.keeper.ownedStore? owner ≠ some site.bank.fresh :=
      fun owner howner => Nat.lt_irrefl _ (h.held howner)
    obtain ⟨horderly, hfate⟩ := h.insert hnew hunowned hbank hlength (hfresh rfl)
    refine ⟨_, site.bank.fresh, hregister, rfl, horderly, fun owner key => ?_⟩
    refine (hfate owner key).trans ?_
    rw [Bank.get_fresh]
    rfl

/-- Unregistering an agent ends the fates of its facts and keeps the others. Unregistering nobody
leaves the shared facts, and none of them is to be taken back. -/
theorem unregister (h : site.Orderly) {agent : Option AgentId}
    (hregistered : (site.keeper.agents.get? agent).isSome) :
    ∃ keeper, site.keeper.unregister agent = .ok keeper ∧
      keeper = { site.keeper with
        agents := site.keeper.agents.erase agent, retractions := keeper.retractions } ∧
      Orderly ⟨keeper, site.bank⟩ ∧
      ∀ owner key, fate ⟨keeper, site.bank⟩ owner key =
        if owner = agent then (site.fate owner key).left owner else site.fate owner key := by
  obtain ⟨store, hstore⟩ := Option.isSome_iff_exists.1 hregistered
  obtain ⟨left, hunregister, hsound, htimely, hdue⟩ := unregister_ok h.sound hstore
  have howned := site.keeper.ownedStore?_erase agent left
  refine ⟨_, hunregister, rfl, ⟨hsound, htimely h.timely, ?_, ?_, ?_⟩, fun owner key => ?_⟩
  · intro owner other r howner hother
    rw [howned] at howner hother
    split at howner
    · cases howner
    · split at hother
      · cases hother
      · exact h.distinct howner hother
  · intro owner r howner
    rw [howned] at howner
    split at howner
    · cases howner
    · exact h.held howner
  · intro retraction hsome
    rw [hdue] at hsome
    rw [howned]
    split at hsome
    · cases hsome
    · next hne =>
      rw [if_neg fun heq => hne heq.1]
      exact h.owned retraction hsome
  · simp only [fate, howned, hdue]
    by_cases heq : owner = agent
    · subst heq
      cases owner <;> simp [Fate.left, Fate.absent, Keeper.ownedStore?]
    · rw [if_neg fun h => heq h.1, if_neg heq, if_neg heq]

end Orderly

end Site

end FactRules
