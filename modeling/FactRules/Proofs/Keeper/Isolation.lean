import FactRules.Proofs.Keeper.Host
import FactRules.Proofs.Keeper.Request

/-!
# Agents do not interfere

What an agent sees of a run is a run of its outlook alone, with the deeds that are shown to it
(`Host.Tidy.run`): each of them is seen as the step of the outlook that it is, and the others are
not seen at all (`Host.Tidy.perform`). Stores stay apart on the way, which `Host.Tidy` says with
what else holds of a host after suitable deeds.

So two runs that differ by deeds of other agents only look the same to the agent:
`Host.agents_do_not_interfere`. Nobody may come and go in one of the runs only, as long as nothing is
called off by it; otherwise the runs may differ (`recalledNight_differs`).
-/

namespace FactRules

/-- What holds of a host after suitable deeds. -/
structure Host.Tidy (host : Host) : Prop where
  steady : host.site.Steady
  timely : host.site.keeper.retractions.Timely
  finite : host.site.keeper.now.isFinite = true
  timed : ∀ event ∈ host.site.keeper.queue, ∀ action ∈ event.actions, action.IsTimed
  allots : Allots host.site.keeper.shared host.site.bank.stores.length host.stores
  stored : ∀ agent store, host.site.keeper.ownedStore? (some agent) = some store →
    store ∈ host.stores (some agent)

/-- What an agent sees of a host. -/
def Host.outlook (host : Host) (agent : AgentId) : Outlook :=
  host.site.keeper.outlook agent (host.stores (some agent)) host.site.ledger

/-- What an agent sees of a host after a deed: a step of the outlook, if the deed is shown to it. -/
def Host.sees (host : Host) (agent : AgentId) (deed : Deed) : Outlook :=
  if host.shows agent deed then (host.outlook agent).step agent deed else host.outlook agent

namespace Host.Tidy

variable {host : Host} {agent : AgentId} {deed : Deed}

/-- A deed that is shown is a step. -/
theorem sees_of_shows (h : host.shows agent deed = true) :
    host.sees agent deed = (host.outlook agent).step agent deed := if_pos h

/-- A deed that is not shown changes nothing. -/
theorem sees_of_not_shows (h : host.shows agent deed = false) :
    host.sees agent deed = host.outlook agent := if_neg (Bool.eq_false_iff.1 h)

/-- The agent sees that it is registered. -/
theorem sees_register_self (place : Option Nat) :
    host.sees agent (.register (some agent) place) = (host.outlook agent).register place :=
  sees_of_shows (decide_eq_true rfl)

/-- It does not see that others are. -/
theorem sees_register_other {other : Option AgentId} (hne : other ≠ some agent)
    (place : Option Nat) : host.sees agent (.register other place) = host.outlook agent :=
  sees_of_not_shows (decide_eq_false hne)

/-- The agent sees that it is unregistered. -/
theorem sees_unregister_self :
    host.sees agent (.unregister (some agent)) = (host.outlook agent).unregister :=
  sees_of_shows (decide_eq_true rfl)

/-- It does not see that other agents are. -/
theorem sees_unregister_other {other : AgentId} (hne : other ≠ agent) :
    host.sees agent (.unregister (some other)) = host.outlook agent :=
  sees_of_not_shows (decide_eq_false hne)

/-- The agent sees an event that waits, as far as it concerns the agent. -/
theorem sees_trigger (event : Event) :
    host.sees agent (.trigger event) = (host.outlook agent).enqueue agent [event] := by
  have hshows : host.shows agent (.trigger event) = event.concerns agent := rfl
  cases hconcerns : event.concerns agent with
  | true => exact sees_of_shows (hshows.trans hconcerns)
  | false =>
    rw [Outlook.enqueue_of_not_concerns hconcerns]
    exact sees_of_not_shows (hshows.trans hconcerns)

/-- So it is with an event that is applied at once. -/
theorem sees_triggerImmediate (event : Event) :
    host.sees agent (.triggerImmediate event) = (host.outlook agent).apply agent event := by
  have hshows : host.shows agent (.triggerImmediate event) = event.concerns agent := rfl
  cases hconcerns : event.concerns agent with
  | true => exact sees_of_shows (hshows.trans hconcerns)
  | false =>
    rw [Outlook.apply_of_not_concerns hconcerns]
    exact sees_of_not_shows (hshows.trans hconcerns)

/-- A host starts tidily: nobody is registered, nothing is to be taken back and no event waits. -/
theorem start {shared : StoreRef} {bank : Bank} {stores : Option AgentId → List StoreRef}
    (h : Allots shared bank.stores.length stores) (dice : Dice) :
    Tidy ⟨.start shared dice bank, stores⟩ where
  steady := .ofShared shared dice bank
  timely := .empty
  finite := Site.isFinite_now_start ..
  timed event hmem := by cases hmem
  allots := h
  stored agent store hstore := by cases hstore

/-- Every agent's stores are apart. -/
theorem parts (h : host.Tidy) (agent : AgentId) :
    host.site.keeper.Parts agent (host.stores (some agent)) where
  nodup := h.allots.nodup _
  shared hmem := (h.allots.held _ _ hmem).2 rfl
  own := h.stored agent
  others other hother store hstore := by
    have hmem := h.stored other store hstore
    exact ⟨(h.allots.held _ store hmem).2,
      fun hshared => hother (Option.some.inj (h.allots.disjoint hmem hshared))⟩

/-- Queueing events and rolling dice is seen as far as the events concern the agent. -/
theorem enqueue (h : host.Tidy) {events : List Event}
    (htimed : ∀ event ∈ events, ∀ action ∈ event.actions, action.IsTimed) (dice : Dice) :
    let after : Host := ⟨⟨{ host.site.keeper with queue := host.site.keeper.queue ++ events, dice },
      host.site.bank⟩, host.stores⟩
    after.Tidy ∧
      after.outlook agent = Outlook.enqueue agent events { host.outlook agent with dice } := by
  refine ⟨⟨h.steady.congr _ _ _ _, h.timely, h.finite, fun event hmem => ?_, h.allots, h.stored⟩,
    ?_⟩
  · rcases List.mem_append.1 hmem with hmem | hmem
    · exact h.timed event hmem
    · exact htimed event hmem
  · exact Outlook.ext rfl rfl (List.filter_append ..) rfl rfl rfl rfl rfl

/-- Applying an event at once is seen as the outlook says. -/
theorem triggerImmediate (h : host.Tidy) {event : Event}
    (htimed : ∀ action ∈ event.actions, action.IsTimed) :
    (host.perform (.triggerImmediate event)).Tidy ∧
      (host.perform (.triggerImmediate event)).outlook agent =
        (host.outlook agent).apply agent event := by
  obtain ⟨after, notices, happly, hleads⟩ := h.steady.applyEvent event
  have hperform : host.site.perform (.triggerImmediate event) = after :=
    Site.perform_ok (map_eq_ok.2 ⟨_, happly, rfl⟩)
  have hkeeper := hleads.keeper
  rw [Host.perform, hperform]
  refine ⟨⟨hleads.steady, hleads.timely ?_ h.timely, ?_, ?_, ?_, ?_⟩, ?_⟩
  · exact fun action hmem => (htimed action hmem).isDueFrom h.finite
  · rw [hkeeper]
    exact h.finite
  · rw [hkeeper]
    exact h.timed
  · rw [hkeeper]
    exact h.allots.mono hleads.length
  · rw [hkeeper]
    exact h.stored
  · rw [Host.outlook, Host.outlook, hleads.ledger, hkeeper, ← (h.parts agent).outlook_apply]
    rfl

/-- A tick is seen as the outlook says. -/
theorem tick (h : host.Tidy) {now : Double} (hnow : now.isFinite = true) :
    (host.perform (.tick now)).Tidy ∧
      (host.perform (.tick now)).outlook agent = (host.outlook agent).tick agent now := by
  obtain ⟨after, notices, _, htick, hkeeper, hsteady, hlength, _, _, htimely⟩ :=
    h.steady.tick now
  have hperform : host.site.perform (.tick now) = after :=
    Site.perform_ok (map_eq_ok.2 ⟨_, htick, rfl⟩)
  obtain ⟨htimely, hledger⟩ := htimely h.timely
    fun event hevent action haction => (h.timed event hevent action haction).isDueFrom hnow
  let moved : Keeper := { host.site.keeper with now }
  have hparts : moved.Parts agent (host.stores (some agent)) :=
    ⟨(h.parts agent).nodup, (h.parts agent).shared, (h.parts agent).own, (h.parts agent).others⟩
  rw [Host.perform, hperform]
  refine ⟨⟨hsteady, htimely, ?_, ?_, ?_, ?_⟩, ?_⟩
  · rw [hkeeper]
    exact hnow
  · rw [hkeeper]
    intro event hmem
    cases hmem
  · rw [hkeeper]
    exact h.allots.mono hlength
  · rw [hkeeper]
    exact h.stored
  · have hseen : moved.outlook agent (host.stores (some agent)) after.ledger =
        (((host.outlook agent).waiting.foldl (Outlook.apply agent)
          { host.outlook agent with now }).expire now) := by
      rw [hledger, hparts.outlook_expire, hparts.outlook_applyAll]
      rfl
    rw [Outlook.tick, ← hseen, Host.outlook, hkeeper]
    rfl

/-- An agent that is not registered sees so. -/
theorem own_eq_none (hnew : host.site.keeper.ownedStore? (some agent) = none) :
    (host.outlook agent).own = none :=
  Keeper.own_outlook_eq_none hnew ..

/-- An agent that is registered sees with which of its stores. -/
theorem exists_own (h : host.Tidy) {store : StoreRef}
    (hstore : host.site.keeper.ownedStore? (some agent) = some store) :
    ∃ place, (host.outlook agent).own = some place ∧
      (host.stores (some agent))[place]? = some store := by
  obtain ⟨place, hplace, hown⟩ := (h.parts agent).exists_own hstore host.site.ledger
  exact ⟨place, hown, (idxOf?_eq_some_iff (h.allots.nodup _)).1 hplace⟩

/-! ### Registering -/

/-- Registering whoever is registered changes nothing. -/
theorem register_of_registered {other : Option AgentId}
    (hregistered : host.site.keeper.agents.contains other = true) (place : Option Nat) :
    host.register other place = host := by
  have htaken : host.site.keeper.taken? other = some (.alreadyRegistered other) :=
    if_pos hregistered
  cases hplace : place.bind fun place => (host.stores other)[place]? with
  | none => simp only [Host.register, hplace, Site.register_error htaken]
  | some store =>
    have hrefused : host.site.after (.register other (some store)) =
        .error (.alreadyRegistered other) := by
      rw [Site.after, Site.register_error htaken]
      rfl
    simp only [Host.register, hplace, Site.perform_error hrefused]

section Insert

variable {bank : Bank} {stores : Option AgentId → List StoreRef}

/-- The host after its keeper registers someone with one of the stores for them. The stores may have
grown by new ones. -/
theorem insert (h : host.Tidy) {other : Option AgentId} {store : StoreRef}
    (hallots : Allots host.site.keeper.shared bank.stores.length stores)
    (hgrown : ∀ agent, ∀ store ∈ host.stores agent, store ∈ stores agent)
    (hmem : store ∈ stores other) :
    Tidy ⟨⟨{ host.site.keeper with
      agents := host.site.keeper.agents.insert other store }, bank⟩, stores⟩ := by
  refine ⟨⟨h.steady.sound, fun retraction hsome => ?_⟩, h.timely, h.finite, h.timed, hallots, ?_⟩
  · exact Keeper.isSome_ownedStore?_insert (h.steady.owned retraction hsome) ..
  · intro agent ref howned
    rw [Keeper.ownedStore?_insert] at howned
    split at howned
    · next heq =>
      obtain ⟨rfl, _⟩ := heq
      cases howned
      exact hmem
    · exact hgrown _ ref (h.stored agent ref howned)

/-- The agent sees it: it is registered with the store, which has its place. -/
theorem outlook_insert_self (hbank : ∀ r, bank.get r = host.site.bank.get r)
    {known : List StoreRef} (hknown : stores (some agent) = known) (hnodup : known.Nodup)
    {store : StoreRef} {place : Nat} (hplace : known[place]? = some store) :
    Host.outlook ⟨⟨{ host.site.keeper with
        agents := host.site.keeper.agents.insert (some agent) store }, bank⟩, stores⟩ agent =
      { host.outlook agent with stores := known.map host.site.bank.get, own := some place } := by
  subst hknown
  refine Outlook.ext rfl rfl rfl (hbank _) (List.map_congr_left fun r _ => hbank r) ?_ rfl rfl
  have howned := host.site.keeper.ownedStore?_insert (some agent) store (some agent)
  rw [if_pos ⟨rfl, rfl⟩] at howned
  have hown := congrArg (Option.bind · (stores (some agent)).idxOf?) howned
  exact hown.trans ((idxOf?_eq_some_iff hnodup).2 hplace)

/-- Others do not see it. -/
theorem outlook_insert_other (hbank : ∀ r, bank.get r = host.site.bank.get r)
    {other : Option AgentId} (hne : other ≠ some agent)
    (hsame : stores (some agent) = host.stores (some agent)) (store : StoreRef) :
    Host.outlook ⟨⟨{ host.site.keeper with
        agents := host.site.keeper.agents.insert other store }, bank⟩, stores⟩ agent =
      host.outlook agent := by
  have hstores : (stores (some agent)).map bank.get =
      (host.stores (some agent)).map host.site.bank.get := by
    rw [hsame]
    exact List.map_congr_left fun r _ => hbank r
  have howned := host.site.keeper.ownedStore?_insert other store (some agent)
  rw [if_neg fun heq => hne heq.1.symm] at howned
  have hown := congrArg (Option.bind · (stores (some agent)).idxOf?) howned
  rw [hsame] at hown
  refine Outlook.ext rfl rfl rfl (hbank _) hstores ?_ rfl rfl
  refine Eq.trans ?_ hown
  rw [← hsame]
  rfl

end Insert

/-- Registering someone with a new store. -/
theorem register_new (h : host.Tidy) {other : Option AgentId}
    (hget : host.site.keeper.agents.get? other = none) {place : Option Nat}
    (hplace : (place.bind fun place => (host.stores other)[place]?) = none) :
    (host.register other place).Tidy ∧
      (host.register other place).outlook agent = host.sees agent (.register other place) := by
  obtain ⟨bank, hregister, hbank, _, hfresh⟩ := Site.register_ok hget none
  have hallots := h.allots.add other (hfresh rfl)
  simp only [Host.register, hplace, hregister, Option.getD_none]
  refine ⟨h.insert hallots (fun agent store hmem => ?_) ?_, ?_⟩
  · split
    · next heq => exact List.mem_append_left _ (heq ▸ hmem)
    · exact hmem
  · rw [if_pos rfl]
    exact List.mem_append_right _ (List.mem_singleton_self _)
  · rcases eq_or_ne other (some agent) with rfl | hne
    · have hknown : (if some agent = some agent then
          host.stores (some agent) ++ [host.site.bank.fresh] else host.stores (some agent)) =
            host.stores (some agent) ++ [host.site.bank.fresh] := if_pos rfl
      have hnodup := hallots.nodup (some agent)
      rw [if_pos rfl] at hnodup
      have hempty : host.site.bank.get ⟨host.site.bank.stores.length⟩ = ∅ := Bank.get_fresh _
      have hlength : (host.outlook agent).stores.length = (host.stores (some agent)).length :=
        List.length_map ..
      have hnowhere : place.filter (· < (host.outlook agent).stores.length) = none := by
        rw [hlength]
        cases place with
        | none => rfl
        | some place =>
          have hout := List.getElem?_eq_none_iff.1 hplace
          simp [Option.filter_some, Nat.not_lt.2 hout]
      refine (outlook_insert_self hbank hknown hnodup List.getElem?_concat_length).trans ?_
      rw [sees_register_self, Outlook.register.eq_def, own_eq_none hget, hnowhere, hlength,
        List.map_append, List.map_singleton, hempty]
      rfl
    · rw [sees_register_other hne]
      exact outlook_insert_other hbank hne (if_neg hne.symm) _

/-- Registering someone with a store of their own. -/
theorem register_own (h : host.Tidy) {other : Option AgentId}
    (hget : host.site.keeper.agents.get? other = none) {place : Option Nat} {store : StoreRef}
    (hplace : (place.bind fun place => (host.stores other)[place]?) = some store) :
    (host.register other place).Tidy ∧
      (host.register other place).outlook agent = host.sees agent (.register other place) := by
  obtain ⟨bank, hregister, hbank, hgrown, _⟩ := Site.register_ok hget (some store)
  have hperform : host.site.perform (.register other (some store)) = _ :=
    Site.perform_ok (map_eq_ok.2 ⟨_, hregister, rfl⟩)
  obtain ⟨number, rfl, hnumber⟩ := Option.bind_eq_some_iff.1 hplace
  simp only [Host.register, hplace, hperform]
  refine ⟨h.insert (h.allots.mono hgrown) (fun _ _ hmem => hmem)
    (List.mem_of_getElem? hnumber), ?_⟩
  rcases eq_or_ne other (some agent) with rfl | hne
  · have hlength : (host.outlook agent).stores.length = (host.stores (some agent)).length :=
      List.length_map ..
    have hthere : (some number).filter (· < (host.outlook agent).stores.length) = some number := by
      obtain ⟨hlt, _⟩ := List.getElem?_eq_some_iff.1 hnumber
      rw [hlength]
      simp [Option.filter_some, hlt]
    refine (outlook_insert_self hbank rfl (h.allots.nodup _) hnumber).trans ?_
    rw [sees_register_self, Outlook.register.eq_def, own_eq_none hget, hthere]
    rfl
  · rw [sees_register_other hne]
    exact outlook_insert_other hbank hne rfl store

/-- Registering is seen as the outlook says. -/
theorem register (h : host.Tidy) (other : Option AgentId) (place : Option Nat) :
    (host.register other place).Tidy ∧
      (host.register other place).outlook agent = host.sees agent (.register other place) := by
  cases hget : host.site.keeper.agents.get? other with
  | some store =>
    have hregistered : host.site.keeper.agents.contains other = true := by
      rw [OrderedMap.contains, hget]
      rfl
    rw [register_of_registered hregistered]
    refine ⟨h, ?_⟩
    rcases eq_or_ne other (some agent) with rfl | hne
    · obtain ⟨place, hplace, _⟩ := h.exists_own hget
      rw [sees_register_self, Outlook.register.eq_def, hplace]
      rfl
    · exact (sees_register_other hne place).symm
  | none =>
    cases hplace : place.bind fun place => (host.stores other)[place]? with
    | none => exact h.register_new hget hplace
    | some store => exact h.register_own hget hplace

/-! ### Unregistering -/

/-- Unregistering whoever is not registered changes nothing. -/
theorem unregister_of_new {other : Option AgentId}
    (hget : host.site.keeper.agents.get? other = none) :
    host.perform (.unregister other) = host := by
  have hmissing : host.site.keeper.missing? other = some (.unknownAgent other) :=
    Keeper.missing?_eq_some_iff.2 ⟨hget, rfl⟩
  have hrefused : host.site.after (.unregister other) = .error (.unknownAgent other) := by
    rw [Site.after, Site.unregister_error hmissing]
    rfl
  rw [Host.perform, Site.perform_error hrefused]

/-- Where unregistering nobody, who is registered, is not shown, no shared fact is to be taken
back. -/
theorem dueTime?_of_not_shows (h : host.Tidy) {store : StoreRef}
    (hget : host.site.keeper.agents.get? none = some store)
    (hshown : host.shows agent (.unregister none) = false) (key : String) :
    host.site.keeper.retractions.dueTime? ⟨key, none⟩ = none := by
  have hregistered : host.site.keeper.agents.contains none = true := by
    rw [OrderedMap.contains, hget]
    rfl
  rw [Host.shows, hregistered, Bool.true_and] at hshown
  refine Option.not_isSome_iff_eq_none.1 fun hsome => Bool.eq_false_iff.1 hshown ?_
  exact List.any_eq_true.2 ⟨⟨key, none⟩, h.steady.sound.mem_tasks_iff.2 hsome, rfl⟩

/-- What an agent sees of a host whose keeper has unregistered someone. -/
theorem outlook_erase (h : host.Tidy) {other : Option AgentId} {store : StoreRef}
    (hget : host.site.keeper.agents.get? other = some store) {left : Schedule Retraction}
    (hdue : ∀ retraction, left.dueTime? retraction =
      if retraction.owner = other then none
      else host.site.keeper.retractions.dueTime? retraction) :
    Host.outlook ⟨⟨{ host.site.keeper with
        agents := host.site.keeper.agents.erase other, retractions := left }, host.site.bank⟩,
          host.stores⟩ agent =
      host.sees agent (.unregister other) := by
  have howned := host.site.keeper.ownedStore?_erase other left (some agent)
  have hown := congrArg (Option.bind · (host.stores (some agent)).idxOf?) howned
  have hgone : ∀ key, left.dueTime? ⟨key, other⟩ = none := fun key => (hdue _).trans (if_pos rfl)
  have hkept : ∀ key owner, owner ≠ other →
      left.dueTime? ⟨key, owner⟩ = host.site.keeper.retractions.dueTime? ⟨key, owner⟩ :=
    fun key owner hne => (hdue _).trans (if_neg hne)
  cases other with
  | none =>
    rw [if_neg fun heq => by cases heq.1] at hown
    have howns : ∀ key, left.dueTime? ⟨key, some agent⟩ =
        host.site.keeper.retractions.dueTime? ⟨key, some agent⟩ := fun key => hkept key _ nofun
    cases hshown : host.shows agent (.unregister none) with
    | true =>
      rw [sees_of_shows hshown]
      exact Outlook.ext rfl rfl rfl rfl rfl hown (funext hgone) (funext howns)
    | false =>
      rw [sees_of_not_shows hshown]
      refine Outlook.ext rfl rfl rfl rfl rfl hown (funext fun key => ?_) (funext howns)
      exact (hgone key).trans (h.dueTime?_of_not_shows hget hshown key).symm
  | some id =>
    have hshared : ∀ key, left.dueTime? ⟨key, none⟩ =
        host.site.keeper.retractions.dueTime? ⟨key, none⟩ := fun key => hkept key _ nofun
    rcases eq_or_ne id agent with rfl | hne
    · obtain ⟨place, hplace, _⟩ := h.exists_own hget
      rw [if_pos ⟨rfl, rfl⟩] at hown
      rw [sees_unregister_self, Outlook.unregister.eq_def, hplace]
      exact Outlook.ext rfl rfl rfl rfl rfl hown (funext hshared) (funext hgone)
    · have hsome : some agent ≠ some id := fun heq => hne (Option.some.inj heq).symm
      rw [if_neg fun heq => hsome heq.1] at hown
      rw [sees_unregister_other hne]
      exact Outlook.ext rfl rfl rfl rfl rfl hown (funext hshared)
        (funext fun key => hkept key _ hsome)

/-- Unregistering is seen as the outlook says. -/
theorem unregister (h : host.Tidy) (other : Option AgentId) :
    (host.perform (.unregister other)).Tidy ∧
      (host.perform (.unregister other)).outlook agent = host.sees agent (.unregister other) := by
  cases hget : host.site.keeper.agents.get? other with
  | none =>
    rw [unregister_of_new hget]
    refine ⟨h, ?_⟩
    cases other with
    | none =>
      have hhidden : host.shows agent (.unregister none) = false := by
        rw [Host.shows, OrderedMap.contains, hget]
        rfl
      exact (sees_of_not_shows hhidden).symm
    | some id =>
      rcases eq_or_ne id agent with rfl | hne
      · rw [sees_unregister_self, Outlook.unregister.eq_def, own_eq_none hget]
        rfl
      · exact (sees_unregister_other hne).symm
  | some store =>
    obtain ⟨left, hunregister, _, htimely, hdue⟩ := Site.unregister_ok h.steady.sound hget
    obtain ⟨keeper, hsame, hsteady, _⟩ := h.steady.unregister hget
    cases hunregister.symm.trans hsame
    have hperform : host.site.perform (.unregister other) = _ :=
      Site.perform_ok (map_eq_ok.2 ⟨_, hunregister, rfl⟩)
    rw [Host.perform, hperform]
    refine ⟨⟨hsteady, htimely h.timely, h.finite, h.timed, h.allots, fun agent ref hstore => ?_⟩,
      h.outlook_erase hget hdue⟩
    rw [Keeper.ownedStore?_erase] at hstore
    split at hstore
    · cases hstore
    · exact h.stored agent ref hstore

/-! ### Asking -/

/-- The facts of the registered store are seen. -/
theorem ownFacts?_outlook (h : host.Tidy) (agent : AgentId) : (host.outlook agent).ownFacts? =
    (host.site.keeper.ownedStore? (some agent)).map host.site.bank.get := by
  cases hstore : host.site.keeper.ownedStore? (some agent) with
  | none => rw [Outlook.ownFacts?, own_eq_none hstore, Option.bind_none, Option.map_none]
  | some store =>
    obtain ⟨place, hown, hplace⟩ := h.exists_own hstore
    rw [Outlook.ownFacts?, hown, Option.bind_some, Host.outlook, Keeper.outlook, List.getElem?_map,
      hplace]
    rfl

/-- What can be asked for the agent or for nobody is asked on the chain of the outlook. -/
theorem ask_cases (h : host.Tidy) (concept : Concept) {who : Option AgentId}
    (hwho : who = none ∨ who = some agent) (extra : List (String × Double)) :
    (∃ query, host.site.keeper.ask concept who extra = .ok query ∧ query.concept = concept ∧
        (host.outlook agent).chain? extra who = some (query.chain host.site.bank)) ∨
      host.site.keeper.ask concept who extra = .error (.unknownAgent who) ∧
        (host.outlook agent).chain? extra who = none := by
  rcases hwho with rfl | rfl
  · exact .inl ⟨_, Keeper.ask_none .., rfl, rfl⟩
  · rw [Keeper.ask_some, Outlook.chain?, h.ownFacts?_outlook]
    cases host.site.keeper.ownedStore? (some agent) with
    | none => exact .inr ⟨rfl, rfl⟩
    | some store => exact .inl ⟨_, rfl, rfl, rfl⟩

/-- The rules that match a query for the agent or for nobody are told by the outlook. -/
theorem matching_ask (h : host.Tidy) (rules : RuleSet) (concept : Concept) {who : Option AgentId}
    (hwho : who = none ∨ who = some agent) (extra : List (String × Double)) :
    (host.site.keeper.ask concept who extra).map (·.matching rules host.site.bank) =
      match (host.outlook agent).chain? extra who with
      | some chain => .ok (rules.matching concept chain)
      | none => .error (.unknownAgent who) := by
  rcases h.ask_cases concept hwho extra with ⟨query, hask, rfl, hchain⟩ | ⟨hask, hchain⟩
  · rw [hask, hchain]
    rfl
  · rw [hask, hchain]
    rfl

/-- Responding to the agent or to nobody is seen as the outlook says. -/
theorem respond (h : host.Tidy) {rules : RuleSet} (concept : Concept) {who : Option AgentId}
    (hwho : who = none ∨ who = some agent) (extra : List (String × Double))
    (htimed : ∀ rule ∈ rules.rules, ∀ action ∈ rule.response.now, action.IsTimed) :
    (host.perform (.respond rules concept who extra)).Tidy ∧
      (host.perform (.respond rules concept who extra)).outlook agent =
        (host.outlook agent).respond agent rules concept who extra := by
  rcases h.ask_cases concept hwho extra with ⟨query, hask, rfl, hchain⟩ | ⟨hask, hchain⟩
  · obtain ⟨reply, hrespond, _⟩ := Site.respond_ok rules hask
    obtain ⟨answer, hanswer⟩ :
        ∃ answer, query.run rules host.site.bank host.site.keeper.dice = answer := ⟨_, rfl⟩
    have hdrawn := query.run_eq_drawn rules host.site.bank host.site.keeper.dice
    rw [hanswer] at hrespond hdrawn
    have hperform : host.site.perform (.respond rules query.concept who extra) = _ :=
      Site.perform_ok (map_eq_ok.2 ⟨_, hrespond, rfl⟩)
    have hqueued : ∀ event ∈ answer.response.toList.map fun response => Event.mk response.now who,
        ∀ action ∈ event.actions, action.IsTimed := by
      intro event hmem
      obtain ⟨response, hresponse, rfl⟩ := List.mem_map.1 hmem
      rw [Option.mem_toList, ← hanswer] at hresponse
      obtain ⟨rule, hrule, rfl⟩ := Query.mem_of_run hresponse
      exact htimed rule hrule
    have hseen : (host.outlook agent).respond agent rules query.concept who extra =
        Outlook.enqueue agent (answer.response.toList.map fun response => ⟨response.now, who⟩)
          { host.outlook agent with dice := answer.dice } := by
      rw [Outlook.respond.eq_def, hchain]
      exact congrArg (fun result : Option Response × Dice =>
        Outlook.enqueue agent (result.1.toList.map fun response => ⟨response.now, who⟩)
          { host.outlook agent with dice := result.2 }) hdrawn.symm
    rw [Host.perform, hperform, hseen]
    exact h.enqueue hqueued answer.dice
  · have hrefused : host.site.after (.respond rules concept who extra) =
        .error (.unknownAgent who) := by
      rw [Site.after, Site.respond_error hask]
      rfl
    rw [Host.perform, Site.perform_error hrefused, Outlook.respond.eq_def, hchain]
    exact ⟨h, rfl⟩

/-! ### Runs -/

/-- A suitable deed is seen as the outlook says, if it is shown, and otherwise not at all. -/
theorem perform (h : host.Tidy) (hsuits : deed.Suits agent) :
    (host.perform deed).Tidy ∧ (host.perform deed).outlook agent = host.sees agent deed := by
  cases deed with
  | register other place => exact h.register other place
  | unregister other => exact h.unregister other
  | trigger event =>
    rw [sees_trigger]
    exact h.enqueue (List.forall_mem_singleton.2 hsuits) host.site.keeper.dice
  | triggerImmediate event =>
    rw [sees_triggerImmediate]
    exact h.triggerImmediate hsuits
  | respond rules concept who extra => exact h.respond concept hsuits.1 extra hsuits.2
  | tick now => exact h.tick hsuits

/-- Of suitable deeds one after the other, those are seen that are shown. -/
theorem run (h : host.Tidy) {deeds : List Deed} (hsuits : ∀ deed ∈ deeds, deed.Suits agent) :
    (host.run deeds).Tidy ∧ (host.run deeds).outlook agent =
      (host.shown agent deeds).foldl (Outlook.step agent) (host.outlook agent) := by
  induction deeds generalizing host with
  | nil => exact ⟨h, rfl⟩
  | cons deed rest ih =>
    obtain ⟨htidy, hseen⟩ := h.perform (hsuits deed (List.mem_cons_self ..))
    obtain ⟨hrun, hall⟩ := ih htidy fun deed hmem => hsuits deed (List.mem_cons_of_mem _ hmem)
    refine ⟨hrun, hall.trans ?_⟩
    rw [hseen]
    cases hshown : host.shows agent deed with
    | true => rw [sees_of_shows hshown, shown_cons_of_shows hshown, List.foldl_cons]
    | false => rw [sees_of_not_shows hshown, shown_cons_of_not_shows hshown]

end Host.Tidy

/-! ## Two runs -/

/-- Two sites are alike to an agent: the shared store and its own have the same facts in the same
order, the same of them are to be taken back at the same times, and the same rules match. -/
structure Site.Alike (agent : AgentId) (one other : Site) : Prop where
  shared : one.bank.get one.keeper.shared = other.bank.get other.keeper.shared
  own : (one.keeper.ownedStore? (some agent)).map one.bank.get =
    (other.keeper.ownedStore? (some agent)).map other.bank.get
  pending : ∀ key owner, owner = none ∨ owner = some agent →
    (⟨key, owner⟩ ∈ one.keeper.retractions.tasks ↔ ⟨key, owner⟩ ∈ other.keeper.retractions.tasks)
  due : ∀ key owner, owner = none ∨ owner = some agent →
    one.keeper.retractions.dueTime? ⟨key, owner⟩ = other.keeper.retractions.dueTime? ⟨key, owner⟩
  matching : ∀ rules concept who extra, who = none ∨ who = some agent →
    (one.keeper.ask concept who extra).map (·.matching rules one.bank) =
      (other.keeper.ask concept who extra).map (·.matching rules other.bank)

/-- What an agent sees is all that matters to it. -/
theorem Host.Tidy.alike {one other : Host} {agent : AgentId} (hone : one.Tidy) (hother : other.Tidy)
    (hsame : one.outlook agent = other.outlook agent) : Site.Alike agent one.site other.site := by
  have hdue : ∀ key owner, owner = none ∨ owner = some agent →
      one.site.keeper.retractions.dueTime? ⟨key, owner⟩ =
        other.site.keeper.retractions.dueTime? ⟨key, owner⟩ := by
    rintro key owner (rfl | rfl)
    · exact congrFun (congrArg Outlook.sharedDue hsame) key
    · exact congrFun (congrArg Outlook.ownDue hsame) key
  refine ⟨congrArg Outlook.shared hsame, ?_, fun key owner howner => ?_, hdue,
    fun rules concept who extra hwho => ?_⟩
  · rw [← hone.ownFacts?_outlook, hsame, hother.ownFacts?_outlook]
  · rw [hone.steady.sound.mem_tasks_iff, hother.steady.sound.mem_tasks_iff, hdue key owner howner]
  · rw [hone.matching_ask rules concept hwho, hsame, hother.matching_ask rules concept hwho]

/-- Agents do not interfere: two runs from one beginning that have the same deeds but for those that
belong to other agents are alike to an agent. Both runs may end anywhere, so this holds at any two
points up to which the same deeds are shown. Nobody may come and go like another agent, unless it is
called off by this that a shared fact is taken back. -/
theorem Host.agents_do_not_interfere (agent : AgentId) (shared : StoreRef) (dice : Dice)
    (bank : Bank) (stores : Option AgentId → List StoreRef) (first second : List Deed)
    (hallots : Allots shared bank.stores.length stores)
    (hfirst : ∀ deed ∈ first, deed.Suits agent) (hsecond : ∀ deed ∈ second, deed.Suits agent)
    (hsame : Host.shown agent ⟨.start shared dice bank, stores⟩ first =
      Host.shown agent ⟨.start shared dice bank, stores⟩ second) :
    let begun : Host := ⟨.start shared dice bank, stores⟩
    Site.Alike agent (begun.run first).site (begun.run second).site := by
  intro begun
  have htidy : begun.Tidy := .start hallots dice
  obtain ⟨hone, hseen⟩ := htidy.run hfirst
  obtain ⟨hother, hseenToo⟩ := htidy.run hsecond
  refine hone.alike hother ?_
  rw [hseen, hseenToo, hsame]

/-- A guard has a store. -/
def nightStores (agent : Option AgentId) : List StoreRef :=
  if agent = some (.name "guard") then [⟨1⟩] else []

/-- Nobody else has the guard's store. -/
theorem allots_nightStores : Allots ⟨0⟩ 2 nightStores := by
  have hguard : ∀ {agent store}, store ∈ nightStores agent →
      agent = some (.name "guard") ∧ store = ⟨1⟩ := by
    intro agent store hmem
    rw [nightStores] at hmem
    split at hmem
    · next heq => exact ⟨heq, List.mem_singleton.1 hmem⟩
    · cases hmem
  refine ⟨by decide, fun agent store hmem => ?_, fun agent => ?_, fun hmem hother => ?_⟩
  · obtain ⟨_, rfl⟩ := hguard hmem
    decide
  · rw [nightStores]
    split
    · exact List.nodup_singleton _
    · exact List.nodup_nil
  · exact (hguard hmem).1.trans (hguard hother).1.symm

/-- A guard lights a lamp for two units of time. -/
def quietNight : List Deed :=
  [.register (some (.name "guard")) (some 0),
    .triggerImmediate ⟨[.addFact .agent "lamp" (.infinity false) (some (.ofRank false 2))],
      some (.name "guard")⟩,
    .tick (.ofRank false 1)]

/-- Meanwhile a thief, who gets a new store, takes a jewel and loses it, and nobody comes and goes. -/
def busyNight : List Deed :=
  [.register (some (.name "thief")) none] ++ quietNight.take 2 ++
    [.trigger ⟨[.addFact .agent "jewel" (.infinity false) (some .zero)], some (.name "thief")⟩,
      .register none none] ++
    quietNight.drop 2 ++ [.unregister none, .unregister (some (.name "thief"))]

/-- The guard sees no difference between the two nights. -/
theorem nights_alike :
    let begun : Host := ⟨.start ⟨0⟩ (.ofPicks []) ⟨[∅, ∅]⟩, nightStores⟩
    Allots ⟨0⟩ 2 nightStores ∧ (∀ deed ∈ quietNight, deed.Suits (.name "guard")) ∧
      (∀ deed ∈ busyNight, deed.Suits (.name "guard")) ∧
      begun.shown (.name "guard") quietNight = begun.shown (.name "guard") busyNight ∧
      Site.Alike (.name "guard") (begun.run quietNight).site (begun.run busyNight).site := by
  intro begun
  have hquiet : ∀ deed ∈ quietNight, deed.Suits (.name "guard") := by decide
  have hbusy : ∀ deed ∈ busyNight, deed.Suits (.name "guard") := by decide
  -- Nothing of the shared store is to be taken back when nobody goes, only the guard's lamp.
  have hharmless : (begun.run (busyNight.take 6)).shows (.name "guard") (.unregister none) =
      false := by decide +kernel
  have hshown : begun.shown (.name "guard") quietNight = quietNight := by
    refine (Host.shown_cons_of_shows rfl).trans (congrArg _ ?_)
    refine (Host.shown_cons_of_shows rfl).trans (congrArg _ ?_)
    exact Host.shown_cons_of_shows rfl
  have hshownToo : begun.shown (.name "guard") busyNight = quietNight := by
    refine (Host.shown_cons_of_not_shows rfl).trans ?_
    refine (Host.shown_cons_of_shows rfl).trans (congrArg _ ?_)
    refine (Host.shown_cons_of_shows rfl).trans (congrArg _ ?_)
    refine (Host.shown_cons_of_not_shows rfl).trans ?_
    refine (Host.shown_cons_of_not_shows rfl).trans ?_
    refine (Host.shown_cons_of_shows rfl).trans (congrArg _ ?_)
    refine (Host.shown_cons_of_not_shows hharmless).trans ?_
    exact Host.shown_cons_of_not_shows rfl
  have hsame := hshown.trans hshownToo.symm
  exact ⟨allots_nightStores, hquiet, hbusy, hsame,
    Host.agents_do_not_interfere (.name "guard") ⟨0⟩ (.ofPicks []) ⟨[∅, ∅]⟩ nightStores quietNight
      busyNight allots_nightStores hquiet hbusy hsame⟩

/-- An alarm is raised for one unit of time. Perhaps nobody comes and goes before the time is
over. -/
def alarmedNight (between : List Deed) : List Deed :=
  [.triggerImmediate (alarm (some (.ofRank false 1)))] ++ between ++ [.tick (.ofRank false 5)]

/-- It does make a difference if nobody comes and goes: the alarm stays then, for everyone. -/
theorem recalledNight_differs :
    let begun : Host := ⟨.start ⟨0⟩ (.ofPicks []) ⟨[∅, ∅]⟩, nightStores⟩
    let quiet := (begun.run (alarmedNight [])).site
    let recalled := (begun.run (alarmedNight [.register none none, .unregister none])).site
    Allots ⟨0⟩ 2 nightStores ∧
      (∀ between ∈ [[], [.register none none, .unregister none]],
        ∀ deed ∈ alarmedNight between, deed.Suits (.name "guard")) ∧
      (quiet.bank.get quiet.keeper.shared).contains "alarm" = false ∧
      (recalled.bank.get recalled.keeper.shared).contains "alarm" = true ∧
      ¬ Site.Alike (.name "guard") quiet recalled := by
  intro begun quiet recalled
  have hquiet : (quiet.bank.get quiet.keeper.shared).contains "alarm" = false := by
    decide +kernel
  have hrecalled : (recalled.bank.get recalled.keeper.shared).contains "alarm" = true := by
    decide +kernel
  refine ⟨allots_nightStores, by decide +kernel, hquiet, hrecalled, fun halike => ?_⟩
  rw [halike.shared, hrecalled] at hquiet
  cases hquiet

end FactRules
