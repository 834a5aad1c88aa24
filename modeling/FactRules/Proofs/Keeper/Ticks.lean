import FactRules.Proofs.Keeper.Writes

/-!
# Ticks at one time

A tick may be split: whether events are applied in one tick, or group by group in ticks at the same
time, makes no difference in the end (`Site.tick_eq_ticks`). On the way it does: what was due before
is taken back by the first of the ticks already, and a fact whose time to live is over at once goes
between two groups that both write it, where the single tick sees but the later write.

That the end is the same is a property of ledgers (`Ledger.Agrees`). What taking back leaves of a
fact that was just written depends on the write alone, and all other facts are left as they would
have been without it (`Ledger.lookup?_expire_write`); here no two owners may share a store. So
ledgers that agree once what is due is taken back still do so after any writes
(`Ledger.Agrees.applyAll`), and taking back twice is taking back once (`Ledger.expire_expire`).
-/

namespace FactRules

namespace Keeper

/-- No two owners have the same store. -/
def HasDistinctStores (keeper : Keeper) : Prop :=
  ∀ owner ∈ keeper.owners, ∀ other ∈ keeper.owners,
    keeper.ownedStore? owner = keeper.ownedStore? other → owner = other

instance : DecidablePred HasDistinctStores := fun keeper =>
  inferInstanceAs (Decidable (∀ owner ∈ keeper.owners, ∀ other ∈ keeper.owners,
    keeper.ownedStore? owner = keeper.ownedStore? other → owner = other))

/-- A store has one owner at most where no two owners have the same one. -/
theorem HasDistinctStores.owner_eq {keeper : Keeper} (h : keeper.HasDistinctStores)
    {owner other : Option AgentId} {store : StoreRef}
    (howner : keeper.ownedStore? owner = some store)
    (hother : keeper.ownedStore? other = some store) : owner = other :=
  h owner (mem_owners howner) other (mem_owners hother) (howner.trans hother.symm)

end Keeper

/-! ## Ledgers that agree -/

namespace Ledger

variable {keeper : Keeper} {a b c : Ledger} {now : Double}

/-- Two ledgers hold the same facts, in whatever order, and take them back at the same times. -/
structure Agrees (a b : Ledger) : Prop where
  facts : ∀ store key, (a.facts store).lookup? key = (b.facts store).lookup? key
  due : a.due = b.due

namespace Agrees

theorem refl (a : Ledger) : a.Agrees a := ⟨fun _ _ => rfl, rfl⟩

theorem symm (h : a.Agrees b) : b.Agrees a :=
  ⟨fun store key => (h.facts store key).symm, h.due.symm⟩

theorem trans (h : a.Agrees b) (h' : b.Agrees c) : a.Agrees c :=
  ⟨fun store key => (h.facts store key).trans (h'.facts store key), h.due.trans h'.due⟩

end Agrees

/-- After what is due was taken back, nothing is due. -/
theorem isDue_expire (ledger : Ledger) (store : StoreRef) (key : String) :
    (ledger.expire keeper now).isDue keeper now store key = false := by
  rw [Bool.eq_false_iff]
  intro hdue
  obtain ⟨owner, _, hany⟩ := isDue_iff.1 hdue
  obtain ⟨time, htime, hle⟩ := (Option.any_eq_true ..).1 hany
  have hlate := (Option.filter_eq_some_iff.1 htime).2
  rw [hle] at hlate
  cases hlate

/-- Taking back twice what is due at a time is taking it back once. -/
theorem expire_expire (keeper : Keeper) (now : Double) (ledger : Ledger) :
    ((ledger.expire keeper now).expire keeper now).Agrees (ledger.expire keeper now) where
  facts store key := by rw [lookup?_expire, isDue_expire, if_neg Bool.false_ne_true]
  due := by
    funext retraction
    simp only [expire, Option.filter_filter, Bool.and_self]

/-- What taking back leaves of the facts after a write: the written one goes or stays as the write
says, and all others are left as they would have been without the write. -/
theorem lookup?_expire_write (hdistinct : keeper.HasDistinctStores) {owner : Option AgentId}
    {store : StoreRef} (hstore : keeper.ownedStore? owner = some store) (ledger : Ledger)
    (key : String) (value : Double) (due : Option Double) (r : StoreRef) (k : String) :
    (((ledger.write owner store key value due).expire keeper now).facts r).lookup? k =
      if store = r ∧ key = k then (if due.any (·.le now) then none else some value.toSingle)
      else ((ledger.expire keeper now).facts r).lookup? k := by
  rw [lookup?_expire, lookup?_expire]
  by_cases hwritten : store = r ∧ key = k
  · obtain ⟨rfl, rfl⟩ := hwritten
    -- Nobody else has the store, so what was to be taken back of the key before is forgotten.
    have hdue : (ledger.write owner store key value due).isDue keeper now store key =
        due.any (·.le now) := by
      rw [isDue_of_owner hstore fun other hother => hdistinct.owner_eq hother hstore]
      simp only [write, if_pos]
    have hfacts : ((ledger.write owner store key value due).facts store).lookup? key =
        some value.toSingle := by
      simp only [write, if_pos, FactStore.lookup?_add]
    have hself : store = store ∧ key = key := ⟨rfl, rfl⟩
    rw [hdue, hfacts, if_pos hself]
  · have hdue : (ledger.write owner store key value due).isDue keeper now r k =
        ledger.isDue keeper now r k := by
      rw [Bool.eq_iff_iff, isDue_iff, isDue_iff]
      refine exists_congr fun other => and_congr_right fun hother => ?_
      have hne : ¬ (⟨key, owner⟩ : Retraction) = ⟨k, other⟩ := by
        rintro ⟨⟩
        exact hwritten ⟨Option.some.inj (hstore.symm.trans hother), rfl⟩
      simp only [write, if_neg hne]
    have hfacts : ((ledger.write owner store key value due).facts r).lookup? k =
        (ledger.facts r).lookup? k := by
      simp only [write]
      split
      · next heq => rw [FactStore.lookup?_add, if_neg fun hkey => hwritten ⟨heq, hkey⟩, heq]
      · rfl
    rw [hdue, hfacts, if_neg hwritten]

namespace Agrees

/-- Ledgers that agree still do so once what is due is taken back. -/
theorem expire (h : a.Agrees b) (keeper : Keeper) (now : Double) :
    (a.expire keeper now).Agrees (b.expire keeper now) where
  facts store key := by
    rw [lookup?_expire, lookup?_expire, isDue, isDue, h.facts, h.due]
  due := by
    funext retraction
    rw [Ledger.expire, Ledger.expire, h.due]

/-- Ledgers that agree once what is due is taken back still do so after a write. -/
theorem enter (hdistinct : keeper.HasDistinctStores)
    (h : (a.expire keeper now).Agrees (b.expire keeper now)) {write : Written}
    (hstore : keeper.ownedStore? write.owner = some write.store) :
    ((a.enter write).expire keeper now).Agrees ((b.enter write).expire keeper now) where
  facts store key := by
    rw [Ledger.enter, Ledger.enter, lookup?_expire_write hdistinct hstore,
      lookup?_expire_write hdistinct hstore, h.facts]
  due := by
    funext retraction
    have hdue := congrFun h.due retraction
    simp only [Ledger.expire, Ledger.enter, Ledger.write] at hdue ⊢
    split
    · rfl
    · exact hdue

/-- They still do so after all that some events write. -/
theorem applyAll (hdistinct : keeper.HasDistinctStores)
    (h : (a.expire keeper now).Agrees (b.expire keeper now)) (events : List Event) :
    ((events.foldl (apply keeper) a).expire keeper now).Agrees
      ((events.foldl (apply keeper) b).expire keeper now) := by
  rw [foldl_apply_eq_enter, foldl_apply_eq_enter]
  have hstores : ∀ write ∈ events.flatMap keeper.writes,
      keeper.ownedStore? write.owner = some write.store := by
    intro write hmem
    obtain ⟨event, _, hwrite⟩ := List.mem_flatMap.1 hmem
    exact (Keeper.of_mem_writes hwrite).1
  generalize events.flatMap keeper.writes = writes at hstores
  induction writes generalizing a b with
  | nil => exact h
  | cons write rest ih =>
    exact ih (h.enter hdistinct (hstores write (List.mem_cons_self ..))) fun other hother =>
      hstores other (List.mem_cons_of_mem _ hother)

end Agrees

end Ledger

/-! ## Sites whose times are numbers -/

/-- Whether the times of a request are numbers: it ticks at a finite time, and times to live are not
`nan`. -/
def Request.IsTimed : Request → Prop
  | .operation (.tick now) => now.isFinite
  | .operation (.trigger event) | .operation (.triggerImmediate event) =>
    ∀ action ∈ event.actions, action.IsTimed
  | .operation (.respond rules ..) => ∀ rule ∈ rules.rules, ∀ action ∈ rule.response.now,
    action.IsTimed
  | .operation (.register ..) | .operation (.unregister _) | .put .. => True

instance : DecidablePred Request.IsTimed
  | .operation (.tick now) => inferInstanceAs (Decidable (now.isFinite = true))
  | .operation (.trigger event) | .operation (.triggerImmediate event) =>
    inferInstanceAs (Decidable (∀ action ∈ event.actions, action.IsTimed))
  | .operation (.respond rules ..) => inferInstanceAs (Decidable (∀ rule ∈ rules.rules,
      ∀ action ∈ rule.response.now, action.IsTimed))
  | .operation (.register ..) | .operation (.unregister _) | .put .. => .isTrue trivial

namespace Site

variable {site : Site}

/-- The sites that a keeper without agents comes to as long as times are numbers. A host may also
look up when the next fact is to be taken back, by which the schedule is tidied. -/
inductive Reached : Site → Prop
  | start (shared : StoreRef) (dice : Dice) (bank : Bank) : Reached (start shared dice bank)
  | heed {site : Site} (h : Reached site) {request : Request} (htimed : request.IsTimed) :
    Reached (site.heed request)
  | nextTime {site : Site} (h : Reached site) : Reached ⟨site.keeper.nextTime.2, site.bank⟩

/-- Requests with numbers as times lead on from what is reached. -/
theorem Reached.heedAll (h : Reached site) {requests : List Request}
    (htimed : ∀ request ∈ requests, request.IsTimed) : Reached (site.heedAll requests) := by
  induction requests generalizing site with
  | nil => exact h
  | cons request rest ih =>
    exact ih (h.heed (htimed request (List.mem_cons_self ..))) fun other hother =>
      htimed other (List.mem_cons_of_mem _ hother)

/-- A site is steady, and its times are numbers: the due times, the time of the last tick and the
times to live in the events that wait. -/
structure Punctual (site : Site) : Prop where
  steady : site.Steady
  timely : site.keeper.retractions.Timely
  finite : site.keeper.now.isFinite
  timed : ∀ event ∈ site.keeper.queue, ∀ action ∈ event.actions, action.IsTimed

namespace Punctual

/-- A keeper starts punctually, at time zero and with nothing due. -/
theorem start (shared : StoreRef) (dice : Dice) (bank : Bank) :
    (Site.start shared dice bank).Punctual where
  steady := .ofShared shared dice bank
  timely := ⟨nofun, .empty⟩
  finite := isFinite_now_start ..
  timed event hmem := by cases hmem

/-- Events that wait leave a site punctual if their times to live are numbers. -/
theorem enqueue (h : site.Punctual) {events : List Event}
    (htimed : ∀ event ∈ events, ∀ action ∈ event.actions, action.IsTimed) (dice : Dice) :
    Punctual ⟨{ site.keeper with queue := site.keeper.queue ++ events, dice }, site.bank⟩ where
  steady := h.steady.congr ..
  timely := h.timely
  finite := h.finite
  timed event hmem := (List.mem_append.1 hmem).elim (h.timed event) (htimed event)

/-- Registering whoever is not registered succeeds and keeps a site punctual. -/
theorem register (h : site.Punctual) {agent : Option AgentId}
    (hnew : site.keeper.agents.get? agent = none) (store : Option StoreRef) :
    ∃ after ref, site.register agent store = .ok (after, ref) ∧ after.Punctual := by
  obtain ⟨bank, hregister, _⟩ := register_ok hnew store
  obtain ⟨after, ref, hafter, hsteady, _⟩ := h.steady.register hnew store
  rw [hregister] at hafter
  cases hafter
  exact ⟨_, _, hregister, hsteady, h.timely, h.finite, h.timed⟩

/-- Unregistering whoever is registered does so, too: what is cancelled leaves the times of the
others. -/
theorem unregister (h : site.Punctual) {agent : Option AgentId} {store : StoreRef}
    (hstore : site.keeper.agents.get? agent = some store) :
    ∃ keeper, site.keeper.unregister agent = .ok keeper ∧ Punctual ⟨keeper, site.bank⟩ := by
  obtain ⟨left, hunregister, _, htimely, _⟩ := unregister_ok h.steady.sound hstore
  obtain ⟨keeper, hafter, hsteady, _⟩ := h.steady.unregister hstore
  rw [hunregister] at hafter
  cases hafter
  exact ⟨_, hunregister, hsteady, htimely h.timely, h.finite, h.timed⟩

/-- An event is applied without a refusal, and the due times that it adds are numbers as the time of
the last tick is finite. -/
theorem applyEvent (h : site.Punctual) {event : Event}
    (htimed : ∀ action ∈ event.actions, action.IsTimed) :
    ∃ after notices, site.applyEvent event = .ok (after, notices) ∧ after.Punctual := by
  obtain ⟨after, notices, happly, hleads⟩ := h.steady.applyEvent event
  have htimely :=
    hleads.timely (fun action hmem => (htimed action hmem).isDueFrom h.finite) h.timely
  refine ⟨after, notices, happly, hleads.steady, htimely, ?_, ?_⟩
  · rw [hleads.keeper]
    exact h.finite
  · rw [hleads.keeper]
    exact h.timed

/-- A tick at a finite time takes back all that is due once the events that waited are applied. -/
theorem tick (h : site.Punctual) {now : Double} (hnow : now.isFinite) :
    let keeper := { site.keeper with now }
    ∃ after notices, site.tick now = .ok (after, notices) ∧ after.Punctual ∧
      after.keeper = { keeper with queue := [], retractions := after.keeper.retractions } ∧
      after.ledger =
        (site.keeper.queue.foldl (Ledger.apply keeper) site.ledger).expire keeper now := by
  intro keeper
  obtain ⟨after, notices, _, htick, hkeeper, hsteady, _, _, _, hexpire⟩ := h.steady.tick now
  obtain ⟨htimely, hledger⟩ := hexpire h.timely fun event hevent action haction =>
    (h.timed event hevent action haction).isDueFrom hnow
  refine ⟨after, notices, htick, ⟨hsteady, htimely, ?_, ?_⟩, hkeeper, hledger⟩
  · rw [hkeeper]
    exact hnow
  · rw [hkeeper]
    intro event hmem
    cases hmem

/-- A request whose times are numbers leaves a site punctual, whether it is refused or not. -/
theorem heed (h : site.Punctual) {request : Request} (htimed : request.IsTimed) :
    (site.heed request).Punctual := by
  cases hrefusal : site.keeper.refusal? request with
  | some error =>
    rw [heed_error (serve_error hrefusal)]
    exact h
  | none =>
    suffices hserve : ∃ after, site.serve request = .ok after ∧ after.Punctual by
      obtain ⟨after, hserve, hafter⟩ := hserve
      rw [heed_ok hserve]
      exact hafter
    cases request with
    | put store facts =>
      exact ⟨_, rfl, h.steady.congr .., h.timely, h.finite, h.timed⟩
    | operation operation =>
      cases operation with
      | register agent store =>
        obtain ⟨after, ref, hregister, hafter⟩ :=
          h.register (Keeper.get?_of_taken?_eq_none hrefusal) store
        exact ⟨after, map_eq_ok.2 ⟨_, hregister, rfl⟩, hafter⟩
      | unregister agent =>
        obtain ⟨store, hstore⟩ := Keeper.get?_of_missing?_eq_none hrefusal
        obtain ⟨keeper, hunregister, hafter⟩ := h.unregister hstore
        exact ⟨_, map_eq_ok.2 ⟨_, hunregister, rfl⟩, hafter⟩
      | trigger event =>
        exact ⟨_, rfl, h.enqueue (List.forall_mem_singleton.2 htimed) _⟩
      | triggerImmediate event =>
        obtain ⟨after, notices, happly, hafter⟩ := h.applyEvent htimed
        exact ⟨after, map_eq_ok.2 ⟨_, happly, rfl⟩, hafter⟩
      | respond rules concept agent extra =>
        obtain ⟨after, hserve, _⟩ := h.steady.serve hrefusal
        obtain ⟨⟨next, reply⟩, hrespond, rfl⟩ := map_eq_ok.1 hserve
        refine ⟨next, hserve, ?_⟩
        obtain ⟨dice, ⟨_, rfl⟩ | ⟨rule, hrule, _, rfl⟩⟩ := respond_cases hrespond
        · exact ⟨h.steady.congr .., h.timely, h.finite, h.timed⟩
        · exact h.enqueue (List.forall_mem_singleton.2 (htimed rule hrule)) dice
      | tick now =>
        obtain ⟨after, notices, htick, hafter, _⟩ := h.tick htimed
        exact ⟨after, map_eq_ok.2 ⟨_, htick, rfl⟩, hafter⟩

/-- Tidying the schedule leaves a site punctual. -/
theorem nextTime (h : site.Punctual) : Punctual ⟨site.keeper.nextTime.2, site.bank⟩ := by
  obtain ⟨planned, hplans⟩ := h.steady.sound
  obtain ⟨_, hleft, htimely⟩ := hplans.nextTime h.timely
  refine ⟨⟨⟨planned, hleft⟩, fun retraction hsome => h.steady.owned retraction ?_⟩, htimely,
    h.finite, h.timed⟩
  rw [hplans.dueTime?_congr hleft fun _ _ => Iff.rfl]
  exact hsome

end Punctual

/-- Every site that is reached is punctual. -/
theorem Reached.punctual (h : Reached site) : site.Punctual := by
  induction h with
  | start shared dice bank => exact .start shared dice bank
  | heed _ htimed ih => exact ih.heed htimed
  | nextTime _ ih => exact ih.nextTime

/-! ## Splitting a tick -/

/-- Triggers events and ticks. -/
def tickAfter (now : Double) (site : Site) (events : List Event) : Except KeeperError Site :=
  (Site.tick ⟨events.foldl Keeper.trigger site.keeper, site.bank⟩ now).map Prod.fst

/-- Triggers the events of some groups and ticks at the same time after each group. -/
def tickAfterEach (now : Double) (site : Site) (groups : List (List Event)) :
    Except KeeperError Site :=
  groups.foldlM (tickAfter now) site

/-- Events are queued in their order. -/
theorem foldl_trigger (keeper : Keeper) (events : List Event) :
    events.foldl Keeper.trigger keeper = { keeper with queue := keeper.queue ++ events } := by
  induction events generalizing keeper with
  | nil => rw [List.foldl_nil, List.append_nil]
  | cons event rest ih =>
    rw [List.foldl_cons, ih]
    simp only [Keeper.trigger, List.append_assoc, List.singleton_append]

/-- Where events and a tick bring a site on which no event waits. -/
structure TicksTo (now : Double) (site : Site) (events : List Event) (after : Site) : Prop where
  punctual : after.Punctual
  keeper : after.keeper =
    { site.keeper with now, queue := [], retractions := after.keeper.retractions }
  ledger : after.ledger.Agrees
    ((events.foldl (Ledger.apply { site.keeper with now }) site.ledger).expire
      { site.keeper with now } now)

variable {now : Double} {events : List Event} {middle : Site}

/-- Triggering events and ticking succeeds where no event waits. -/
theorem Punctual.tickAfter (h : site.Punctual) (hqueue : site.keeper.queue = [])
    (hnow : now.isFinite)
    (htimed : ∀ event ∈ events, ∀ action ∈ event.actions, action.IsTimed) :
    ∃ after, site.tickAfter now events = .ok after ∧ site.TicksTo now events after := by
  obtain ⟨after, notices, htick, hpunctual, hkeeper, hledger⟩ :=
    (h.enqueue htimed site.keeper.dice).tick hnow
  rw [hqueue] at htick hledger
  refine ⟨after, map_eq_ok.2 ⟨(after, notices), ?_, rfl⟩, hpunctual, hkeeper, ?_⟩
  · rw [foldl_trigger, hqueue]
    exact htick
  · rw [hledger]
    exact .refl _

namespace TicksTo

/-- Two ticks at one time bring a site where one tick after the events of both does. -/
theorem trans {more : List Event} {after : Site} (h : site.TicksTo now events middle)
    (hdistinct : site.keeper.HasDistinctStores) (h' : middle.TicksTo now more after) :
    site.TicksTo now (events ++ more) after where
  punctual := h'.punctual
  keeper := by rw [h'.keeper, h.keeper]
  ledger := by
    have hstores : Keeper.HasDistinctStores { site.keeper with now } := hdistinct
    -- What the first tick took back would be taken back by the second one anyway.
    have hfirst := (h.ledger.expire { site.keeper with now } now).trans (Ledger.expire_expire ..)
    have hsecond := h'.ledger
    rw [h.keeper] at hsecond
    rw [List.foldl_append]
    exact hsecond.trans (hfirst.applyAll hstores more)

/-- Any number of further groups of events can follow, with a tick at the same time after each. -/
theorem tickAfterEach (h : site.TicksTo now events middle)
    (hdistinct : site.keeper.HasDistinctStores) (hnow : now.isFinite)
    {groups : List (List Event)}
    (htimed : ∀ events ∈ groups, ∀ event ∈ events, ∀ action ∈ event.actions, action.IsTimed) :
    ∃ after, middle.tickAfterEach now groups = .ok after ∧
      site.TicksTo now (events ++ groups.flatten) after := by
  induction groups generalizing events middle with
  | nil =>
    refine ⟨middle, rfl, ?_⟩
    rw [List.flatten_nil, List.append_nil]
    exact h
  | cons first rest ih =>
    obtain ⟨hfirst, hrest⟩ := List.forall_mem_cons.1 htimed
    have hwaiting : middle.keeper.queue = [] := by rw [h.keeper]
    obtain ⟨next, htick, hnext⟩ := h.punctual.tickAfter hwaiting hnow hfirst
    obtain ⟨after, hticks, hafter⟩ := ih (h.trans hdistinct hnext) hrest
    refine ⟨after, ?_, ?_⟩
    · rw [Site.tickAfterEach, List.foldlM_cons, htick]
      exact hticks
    · rw [List.flatten_cons, ← List.append_assoc]
      exact hafter

end TicksTo

/-- Ticking once after some events and ticking again and again at the same time, after each of the
groups that the events are split into, comes to the same: the keepers differ in nothing but in how
their schedules lie in memory, the stores hold the same facts, and the same facts are to be taken
back at the same times. -/
theorem tick_eq_ticks (h : Reached site) (hqueue : site.keeper.queue = [])
    (hdistinct : site.keeper.HasDistinctStores) (hnow : now.isFinite)
    {groups : List (List Event)} (hgroups : groups ≠ [])
    (htimed : ∀ events ∈ groups, ∀ event ∈ events, ∀ action ∈ event.actions, action.IsTimed) :
    ∃ once often, site.tickAfter now groups.flatten = .ok once ∧
      site.tickAfterEach now groups = .ok often ∧
      once.keeper.now = now ∧ once.keeper.queue = [] ∧
      often.keeper = { once.keeper with retractions := often.keeper.retractions } ∧
      (∀ store key, (often.bank.get store).lookup? key = (once.bank.get store).lookup? key) ∧
      often.keeper.retractions.timetable.Perm once.keeper.retractions.timetable := by
  obtain ⟨first, rest, rfl⟩ := List.exists_cons_of_ne_nil hgroups
  obtain ⟨hfirst, hrest⟩ := List.forall_mem_cons.1 htimed
  have hall : ∀ event ∈ (first :: rest).flatten, ∀ action ∈ event.actions, action.IsTimed := by
    intro event hevent
    obtain ⟨events, hevents, hmem⟩ := List.mem_flatten.1 hevent
    exact htimed events hevents event hmem
  obtain ⟨once, honce, hone⟩ := h.punctual.tickAfter hqueue hnow hall
  obtain ⟨middle, htick, hmiddle⟩ := h.punctual.tickAfter hqueue hnow hfirst
  obtain ⟨often, hticks, hmany⟩ := hmiddle.tickAfterEach hdistinct hnow hrest
  have hagrees : often.ledger.Agrees once.ledger := hmany.ledger.trans hone.ledger.symm
  refine ⟨once, often, honce, ?_, ?_, ?_, ?_, hagrees.facts, ?_⟩
  · rw [tickAfterEach, List.foldlM_cons, htick]
    exact hticks
  · rw [hone.keeper]
  · rw [hone.keeper]
  · rw [hone.keeper]
    exact hmany.keeper
  · exact hmany.punctual.steady.sound.timetable_perm hone.punctual.steady.sound hagrees.due

end Site

/-- A guard lights a lamp for two units of time. -/
def nightfall : List Request :=
  [.operation (.register (some (.name "guard")) (some ⟨1⟩)),
    .operation (.triggerImmediate
      ⟨[.addFact .agent "lamp" (.infinity false) (some (.ofRank false 2))], some (.name "guard")⟩)]

/-- At the time at which the lamp goes out, an alarm is raised that is over at once. Later it is
raised for longer, and the lamp is lit for good. -/
def midnight : List (List Event) :=
  [[⟨[.addFact .everyone "alarm" (.infinity false) (some .zero)], none⟩], [],
    [⟨[.addFact .everyone "alarm" .zero (some (.ofRank false 1))], none⟩,
      ⟨[.addFact .agent "lamp" .zero none], some (.name "guard")⟩]]

/-- The alarm that is raised for no time is taken back in between, and the lamp that is due is lit
again after it went out; still one tick with all events leads to the same facts and due times. -/
theorem ticks_midnight :
    let site := (Site.start ⟨0⟩ (.ofPicks []) watchBank).heedAll nightfall
    let now : Double := .ofRank false 2
    site.keeper.queue = [] ∧ site.keeper.HasDistinctStores ∧ now.isFinite = true ∧
      ∃ once often, site.tickAfter now midnight.flatten = .ok once ∧
        site.tickAfterEach now midnight = .ok often ∧
        once.keeper.now = now ∧ once.keeper.queue = [] ∧
        often.keeper = { once.keeper with retractions := often.keeper.retractions } ∧
        (∀ store key, (often.bank.get store).lookup? key = (once.bank.get store).lookup? key) ∧
        often.keeper.retractions.timetable.Perm once.keeper.retractions.timetable := by
  intro site now
  have hreached : Site.Reached site := (Site.Reached.start ..).heedAll (by decide)
  have hqueue : site.keeper.queue = [] := rfl
  have hdistinct : site.keeper.HasDistinctStores := by decide
  have hnow : now.isFinite = true := by decide
  exact ⟨hqueue, hdistinct, hnow,
    Site.tick_eq_ticks hreached hqueue hdistinct hnow (by decide) (by decide)⟩

end FactRules
