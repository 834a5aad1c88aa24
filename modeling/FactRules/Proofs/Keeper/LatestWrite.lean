import FactRules.Proofs.Keeper.Chronicle

/-!
# The latest write decides

`Site.latest_write_decides` says that in every state that a run of operations reaches, the fate of
each fact is what the history says of it: the value and the due time are those of the latest write,
unless a tick since then was at the due time or later, or unregistering nobody called off that a
shared fact is taken back; ticks and events never fail on the way. Without the latter the latest
write alone would decide, and so it does for agents' facts and for shared facts that were not called
off. `recalledAlarm_stays` is a run in which one was.

The run is followed by its chronicle (`Site.Follows`). Each action adds to the history what it does
to fates (`Keeps.act`), so do an event and the events of a tick (`Keeps.apply`, `Keeps.applyAll`),
and each operation keeps the site and the chronicle together (`Follows.perform`).
-/

namespace FactRules

/-- A finite number plus a number is a number. -/
theorem Binary.isNan_add {f : Format} {x y : Binary f} (hx : x.isFinite = true)
    (hy : y.isNan = false) : (x.add y).isNan = false := by
  cases x with
  | nan => cases hx
  | num s r hr =>
    cases y with
    | nan => cases hy
    | num t q hq =>
      rw [Binary.isFinite, decide_eq_true_eq] at hx
      rw [Binary.add, if_neg hx]
      split
      · rfl
      · rfl

namespace Site

variable {site : Site} {past : History}

/-- A site holds of each fact what a history says of it. -/
structure Keeps (site : Site) (past : History) : Prop where
  orderly : site.Orderly
  opened : ∀ agent, site.keeper.agents.contains agent = past.isOpen agent
  told : ∀ owner key, site.fate owner key = past.fateOf owner key []

namespace Keeps

/-- A write is recorded as it is carried out. -/
theorem write (h : site.Keeps past) {owner : Option AgentId} {store : StoreRef}
    (hstore : site.keeper.ownedStore? owner = some store) (key : String) (value : Double)
    {ttl : Option Double}
    (htimed : ∀ seconds ∈ ttl, (site.keeper.now.add seconds).isNan = false) :
    ∃ after notices, site.write owner store key value ttl = .ok (after, notices) ∧
      after.keeper = { site.keeper with retractions := after.keeper.retractions } ∧
      after.Keeps (.wrote owner key value (ttl.map site.keeper.now.add) :: past) := by
  obtain ⟨after, notices, hwrite, hkeeper, horderly, hfate⟩ :=
    h.orderly.write hstore key value htimed
  refine ⟨after, notices, hwrite, hkeeper, horderly, fun agent => ?_, fun other k => ?_⟩
  · rw [hkeeper]
    exact h.opened agent
  · rw [hfate, h.told, History.fateOf]
    simp

/-- An action is recorded as it is carried out. -/
theorem act (h : site.Keeps past) (hfinite : site.keeper.now.isFinite = true)
    (agent : Option AgentId) {action : Action} (htimed : action.IsTimed) :
    ∃ after notices, applyAction agent site action = .ok (after, notices) ∧
      after.keeper = { site.keeper with retractions := after.keeper.retractions } ∧
      after.Keeps (past.act site.keeper.now agent action) := by
  cases action with
  | randomText choices => exact ⟨site, [], rfl, rfl, h⟩
  | addFact scope key value ttl =>
    have hdue : ∀ seconds ∈ ttl, (site.keeper.now.add seconds).isNan = false := by
      rintro seconds hseconds
      cases hseconds
      exact Binary.isNan_add hfinite htimed
    cases scope with
    | everyone => exact h.write rfl key value hdue
    | agent =>
      cases agent with
      | none => exact ⟨site, [.noAgent key], rfl, rfl, h⟩
      | some id =>
        have hopened := h.opened (some id)
        rw [OrderedMap.contains] at hopened
        cases hstore : site.keeper.agents.get? (some id) with
        | none =>
          rw [hstore] at hopened
          refine ⟨site, [.unregistered id key], ?_, rfl, ?_⟩
          · simp only [applyAction, hstore]
          · rw [History.act, if_neg]
            · exact h
            · rw [← hopened]
              exact fun hopen => Bool.false_ne_true hopen.2
        | some store =>
          rw [hstore] at hopened
          have howned : site.keeper.ownedStore? (some id) = some store := hstore
          obtain ⟨after, notices, hwrite, hkeeper, hafter⟩ := h.write howned key value hdue
          refine ⟨after, notices, ?_, hkeeper, ?_⟩
          · simp only [applyAction, hstore, hwrite]
          · rw [History.act, if_pos]
            · exact hafter
            · exact ⟨rfl, hopened.symm⟩

/-- If each of some steps is recorded as it is carried out, so are all of them in turn. -/
theorem forEach {α : Type} {step : Site → α → Result} {note : History → α → History}
    {items : List α} (h : site.Keeps past)
    (hstep : ∀ next record, ∀ item ∈ items, next.keeper.now = site.keeper.now →
      next.Keeps record → ∃ after notices, step next item = .ok (after, notices) ∧
        after.keeper = { next.keeper with retractions := after.keeper.retractions } ∧
        after.Keeps (note record item)) :
    ∃ after notices, Site.forEach step site items = .ok (after, notices) ∧
      after.keeper = { site.keeper with retractions := after.keeper.retractions } ∧
      after.Keeps (items.foldl note past) := by
  refine forEach_ok (fun next record =>
    next.keeper = { site.keeper with retractions := next.keeper.retractions } ∧ next.Keeps record)
    ?_ ⟨rfl, h⟩
  rintro next record item hmem ⟨hkeeper, hnext⟩
  obtain ⟨after, notices, happly, hafter, hkeeps⟩ :=
    hstep next record item hmem (by rw [hkeeper]) hnext
  refine ⟨after, notices, happly, ?_, hkeeps⟩
  rw [hafter, hkeeper]

/-- An event is recorded as it is carried out. -/
theorem apply (h : site.Keeps past) (hfinite : site.keeper.now.isFinite = true) {event : Event}
    (htimed : ∀ action ∈ event.actions, action.IsTimed) :
    ∃ after notices, site.applyEvent event = .ok (after, notices) ∧
      after.keeper = { site.keeper with retractions := after.keeper.retractions } ∧
      after.Keeps (past.apply site.keeper.now event) := by
  refine h.forEach fun next record action hmem hnow hnext => ?_
  rw [← hnow] at hfinite ⊢
  exact hnext.act hfinite event.agent (htimed action hmem)

/-- Events are recorded as they are carried out. -/
theorem applyAll (h : site.Keeps past) (hfinite : site.keeper.now.isFinite = true)
    {events : List Event} (htimed : ∀ event ∈ events, ∀ action ∈ event.actions, action.IsTimed) :
    ∃ after notices, Site.forEach applyEvent site events = .ok (after, notices) ∧
      after.keeper = { site.keeper with retractions := after.keeper.retractions } ∧
      after.Keeps (events.foldl (History.apply site.keeper.now) past) := by
  refine h.forEach fun next record event hmem hnow hnext => ?_
  rw [← hnow] at hfinite ⊢
  exact hnext.apply hfinite (htimed event hmem)

/-- Taking back what is due is recorded as a tick. -/
theorem expire (h : site.Keeps past) (now : Double) :
    ∃ after notices,
      Site.forEach retract
          ⟨{ site.keeper with retractions := (site.keeper.retractions.popDue now).2 }, site.bank⟩
          (site.keeper.retractions.popDue now).1 = .ok (after, notices) ∧
      after.keeper = { site.keeper with retractions := after.keeper.retractions } ∧
      after.Keeps (.ticked now :: past) := by
  obtain ⟨after, notices, hretract, hkeeper, horderly, hfate⟩ := h.orderly.expire now
  refine ⟨after, notices, hretract, hkeeper, horderly, fun agent => ?_, fun owner key => ?_⟩
  · rw [hkeeper]
    exact h.opened agent
  · rw [hfate, h.told, History.fateOf_ticked]

/-- Time, queue and dice of a keeper play no part in its facts. -/
theorem congr (h : site.Keeps past) (now : Double) (queue : List Event) (dice : Dice) :
    Keeps ⟨{ site.keeper with now, queue, dice }, site.bank⟩ past :=
  ⟨⟨h.orderly.sound, h.orderly.timely, h.orderly.distinct, h.orderly.held, h.orderly.owned⟩,
    h.opened, h.told⟩

end Keeps

/-- A site and its chronicle agree on what happened, and the site keeps to the rules of a host. -/
structure Follows (site : Site) (chronicle : Chronicle) : Prop where
  keeps : site.Keeps chronicle.past
  now_eq : site.keeper.now = chronicle.past.now
  queue_eq : site.keeper.queue = chronicle.waiting
  finite : site.keeper.now.isFinite = true
  timed : ∀ event ∈ site.keeper.queue, ∀ action ∈ event.actions, action.IsTimed

namespace Follows

variable {chronicle : Chronicle}

/-- A keeper without agents follows the chronicle that starts from the facts of the shared store. -/
theorem start {shared : StoreRef} {bank : Bank} (hshared : shared.index < bank.stores.length)
    (dice : Dice) : (Site.start shared dice bank).Follows (.start (bank.get shared)) where
  keeps.orderly := .ofShared hshared dice
  keeps.opened agent := rfl
  keeps.told owner key := by
    cases owner with
    | none => rfl
    | some agent => rfl
  now_eq := rfl
  queue_eq := rfl
  finite := isFinite_now_start ..
  timed event hmem := by cases hmem

/-- A tick succeeds and is recorded. -/
theorem tick (h : site.Follows chronicle) {now : Double} (hnow : now.isFinite = true) :
    ∃ after notices, site.tick now = .ok (after, notices) ∧
      after.Follows
        ⟨[], .ticked now :: chronicle.waiting.foldl (History.apply now) chronicle.past⟩ := by
  obtain ⟨applied, first, happly, hkeeper, happlied⟩ :=
    (h.keeps.congr now [] site.keeper.dice).applyAll hnow h.timed
  obtain ⟨after, others, hretract, hafter, hexpired⟩ := happlied.expire now
  rw [h.queue_eq] at hexpired
  have hnowAfter : after.keeper.now = now := by rw [hafter, hkeeper]
  have hqueueAfter : after.keeper.queue = [] := by rw [hafter, hkeeper]
  refine ⟨after, ?notices, ?carried, hexpired, hnowAfter, hqueueAfter, hnowAfter ▸ hnow, ?timed⟩
  case carried =>
    simp only [Site.tick, happly, bind, Except.bind, hretract]
    rfl
  case timed =>
    rw [hqueueAfter]
    intro event hmem
    cases hmem

/-- What leaves time and queue as they are is followed by what it adds to the history. -/
theorem move (h : site.Follows chronicle) {after : Site} (hkeeps : after.Keeps past)
    (hnow : after.keeper.now = site.keeper.now) (hqueue : after.keeper.queue = site.keeper.queue)
    (hpast : past.now = chronicle.past.now) : after.Follows { chronicle with past } where
  keeps := hkeeps
  now_eq := hnow.trans (h.now_eq.trans hpast.symm)
  queue_eq := hqueue.trans h.queue_eq
  finite := hnow ▸ h.finite
  timed := hqueue ▸ h.timed

/-- An event that is queued waits for the next tick. -/
theorem enqueue (h : site.Follows chronicle) {event : Event}
    (htimed : ∀ action ∈ event.actions, action.IsTimed) (dice : Dice) :
    Follows ⟨{ site.keeper with queue := site.keeper.queue ++ [event], dice }, site.bank⟩
      { chronicle with waiting := chronicle.waiting ++ [event] } where
  keeps := h.keeps.congr _ _ _
  now_eq := h.now_eq
  queue_eq := congrArg (· ++ [event]) h.queue_eq
  finite := h.finite
  timed other hmem := by
    rcases List.mem_append.1 hmem with hmem | hmem
    · exact h.timed other hmem
    · obtain rfl := List.mem_singleton.1 hmem
      exact htimed

/-- Applying an event at once succeeds and is recorded. -/
theorem applyEvent (h : site.Follows chronicle) {event : Event}
    (htimed : ∀ action ∈ event.actions, action.IsTimed) :
    ∃ after notices, site.applyEvent event = .ok (after, notices) ∧
      after.Follows
        { chronicle with past := chronicle.past.apply chronicle.past.now event } := by
  obtain ⟨after, notices, happly, hkeeper, hkeeps⟩ := h.keeps.apply h.finite htimed
  rw [h.now_eq] at hkeeps
  refine ⟨after, notices, happly, h.move hkeeps ?_ ?_ (History.now_apply ..)⟩
  · rw [hkeeper]
  · rw [hkeeper]

/-- Registering whoever is not registered is recorded; otherwise nothing happens. -/
theorem register (h : site.Follows chronicle) {agent : Option AgentId} {store : Option StoreRef}
    (hadmits : site.Admits (.register agent store)) :
    (site.perform (.register agent store)).Follows
      (chronicle.record site (.register agent store)) := by
  cases hcontains : site.keeper.agents.contains agent with
  | true =>
    have hrefused : site.after (.register agent store) = .error (.alreadyRegistered agent) := by
      rw [Site.after, Site.register.eq_def, if_pos hcontains]
      rfl
    rw [h.keeps.opened] at hcontains
    rw [perform_error hrefused, Chronicle.record, if_pos hcontains]
    exact h
  | false =>
    have hagent : site.keeper.agents.get? agent = none :=
      Option.not_isSome_iff_eq_none.1 (Bool.eq_false_iff.1 hcontains)
    have hfree : ∀ ref ∈ store, site.IsFree ref := by
      intro ref href
      cases href
      exact hadmits hagent
    obtain ⟨next, ref, hregister, hkeeper, horderly, hfate⟩ :=
      h.keeps.orderly.register hagent hfree
    have hafter : site.after (.register agent store) = .ok next := by
      rw [Site.after, hregister]
      rfl
    rw [h.keeps.opened] at hcontains
    rw [perform_ok hafter, Chronicle.record, if_neg (Bool.eq_false_iff.1 hcontains)]
    refine h.move ⟨horderly, fun other => ?_, fun owner key => ?_⟩ ?_ ?_ rfl
    · rw [hkeeper, OrderedMap.contains_insert, h.keeps.opened, History.isOpen]
    · rw [hfate, h.keeps.told, History.fateOf]
    · rw [hkeeper]
    · rw [hkeeper]

/-- Unregistering whoever is registered is recorded; otherwise nothing happens. -/
theorem unregister (h : site.Follows chronicle) (agent : Option AgentId) :
    (site.perform (.unregister agent)).Follows (chronicle.record site (.unregister agent)) := by
  cases hcontains : site.keeper.agents.contains agent with
  | false =>
    have hagent : site.keeper.agents.get? agent = none :=
      Option.not_isSome_iff_eq_none.1 (Bool.eq_false_iff.1 hcontains)
    have hrefused : site.after (.unregister agent) = .error (.unknownAgent agent) := by
      rw [Site.after, Keeper.unregister, Keeper.storeOf, hagent]
      rfl
    rw [h.keeps.opened] at hcontains
    rw [perform_error hrefused, Chronicle.record, if_neg (Bool.eq_false_iff.1 hcontains)]
    exact h
  | true =>
    obtain ⟨keeper, hunregister, hkeeper, horderly, hfate⟩ :=
      h.keeps.orderly.unregister hcontains
    have hafter : site.after (.unregister agent) = .ok ⟨keeper, site.bank⟩ := by
      rw [Site.after, hunregister]
      rfl
    rw [h.keeps.opened] at hcontains
    rw [perform_ok hafter, Chronicle.record, if_pos hcontains]
    refine h.move ⟨horderly, fun other => ?_, fun owner key => ?_⟩ ?_ ?_ rfl
    · rw [hkeeper, OrderedMap.contains_erase, h.keeps.opened, History.isOpen]
    · rw [hfate, h.keeps.told, History.fateOf]
    · rw [hkeeper]
    · rw [hkeeper]

/-- A response is queued as its actions for now; other answers leave the facts and the queue. -/
theorem respond (h : site.Follows chronicle) {rules : RuleSet} {concept : Concept}
    {agent : Option AgentId} {extra : List (String × Double)}
    (hadmits : site.Admits (.respond rules concept agent extra)) :
    (site.perform (.respond rules concept agent extra)).Follows
      (chronicle.record site (.respond rules concept agent extra)) := by
  cases hrespond : site.respond rules concept agent extra with
  | error error =>
    have hrefused : site.after (.respond rules concept agent extra) = .error error := by
      rw [Site.after, hrespond]
      rfl
    rw [perform_error hrefused]
    simp only [Chronicle.record, hrespond]
    exact h
  | ok result =>
    obtain ⟨next, response, asked, notices⟩ := result
    have hafter : site.after (.respond rules concept agent extra) = .ok next := by
      rw [Site.after, hrespond]
      rfl
    rw [perform_ok hafter]
    simp only [Chronicle.record, hrespond]
    obtain ⟨dice, ⟨hnone, rfl⟩ | ⟨rule, hrule, hsome, rfl⟩⟩ := respond_cases hrespond
    · cases hnone
      exact ⟨h.keeps.congr _ _ _, h.now_eq, h.queue_eq, h.finite, h.timed⟩
    · cases hsome
      exact h.enqueue (hadmits rule hrule) dice

/-- Each operation that a host may ask for is recorded as it is performed. -/
theorem perform (h : site.Follows chronicle) {operation : Operation}
    (hadmits : site.Admits operation) :
    (site.perform operation).Follows (chronicle.record site operation) := by
  cases operation with
  | register agent store => exact h.register hadmits
  | unregister agent => exact h.unregister agent
  | trigger event => exact h.enqueue hadmits site.keeper.dice
  | triggerImmediate event =>
    obtain ⟨next, notices, happly, hnext⟩ := h.applyEvent hadmits
    have hafter : site.after (.triggerImmediate event) = .ok next := by
      rw [Site.after, happly]
      rfl
    rw [perform_ok hafter]
    exact hnext
  | respond rules concept agent extra => exact h.respond hadmits
  | tick now =>
    obtain ⟨next, notices, htick, hnext⟩ := h.tick hadmits
    have hafter : site.after (.tick now) = .ok next := by
      rw [Site.after, htick]
      rfl
    rw [perform_ok hafter]
    exact hnext

/-- Operations that a host may ask for are recorded as they are performed. -/
theorem run (h : site.Follows chronicle) {operations : List Operation}
    (hadmits : site.AdmitsAll operations) :
    (site.run operations).Follows (chronicle.recordAll site operations) := by
  induction operations generalizing site chronicle with
  | nil => exact h
  | cons operation rest ih => exact ih (h.perform hadmits.1) hadmits.2

end Follows

/-- In every state that operations lead to from a keeper without agents, the fate of each fact is
the one that the history tells. It is the one that the latest write promised, whatever agents are
registered and unregistered, but for the shared facts that are called off by unregistering nobody.
Ticks and events are always carried out. -/
theorem latest_write_decides (shared : StoreRef) (dice : Dice) (bank : Bank)
    (operations : List Operation) (hshared : shared.index < bank.stores.length)
    (hadmits : (start shared dice bank).AdmitsAll operations) :
    let site := (start shared dice bank).run operations
    let past :=
      ((Chronicle.start (bank.get shared)).recordAll (start shared dice bank) operations).past
    (∀ owner key, site.fate owner key = past.fateOf owner key []) ∧
      (∀ agent key,
        site.fate (some agent) key = past.asPromised.fateOf (some agent) key []) ∧
      (∀ key, site.fate none key = past.asPromised.fateOf none key [] ↔
        past.isCalledOff key = false) ∧
      (∀ now, now.isFinite = true → ∃ result, site.tick now = .ok result) ∧
      ∀ event : Event, (∀ action ∈ event.actions, action.IsTimed) →
        ∃ result, site.applyEvent event = .ok result := by
  intro site past
  have hfollows := (Follows.start hshared dice).run hadmits
  have htold : ∀ owner key, site.fate owner key = past.fateOf owner key [] := hfollows.keeps.told
  refine ⟨htold, fun agent key => ?_, fun key => ?_, fun now hnow => ?_, fun event htimed => ?_⟩
  · rw [htold, History.fateOf_asPromised_some]
  · rw [htold, History.fateOf_eq_asPromised_iff]
  · obtain ⟨after, notices, htick, _⟩ := hfollows.tick hnow
    exact ⟨_, htick⟩
  · obtain ⟨after, notices, happly, _⟩ := hfollows.applyEvent htimed
    exact ⟨_, happly⟩

end Site

/-- A store for everyone, and one in which a lamp is out. -/
def watchBank : Bank := ⟨[∅, .ofList [("lamp", .zero)]]⟩

/-- An alarm that everyone hears, for good or for a time. -/
def alarm (ttl : Option Double) : Event := ⟨[.addFact .everyone "alarm" (.ofInt 1) ttl], none⟩

/-- A guard comes on watch with the lamp. It is lit for two units of time and, as these are over,
for good; an alarm is over at the tick that raises it. -/
def watch : List Operation :=
  let lamp (ttl : Option Double) : Event :=
    ⟨[.addFact .agent "lamp" (.infinity false) ttl], some (.name "guard")⟩
  [.register (some (.name "guard")) (some ⟨1⟩),
    .triggerImmediate (lamp (some (.ofRank false 2))), .trigger (alarm (some .zero)),
    .tick (.ofRank false 1), .trigger (lamp none), .tick (.ofRank false 2),
    .tick (.ofRank false 3)]

/-- At the end of the watch the lamp is lit for good, as was promised last, and the alarm is
over. -/
theorem watch_fates :
    (⟨0⟩ : StoreRef).index < watchBank.stores.length ∧
      (Site.start ⟨0⟩ (.ofPicks []) watchBank).AdmitsAll watch ∧
      ((Site.start ⟨0⟩ (.ofPicks []) watchBank).run watch).fate (some (.name "guard")) "lamp" =
        ⟨some (.infinity false), none⟩ ∧
      ((Site.start ⟨0⟩ (.ofPicks []) watchBank).run watch).fate none "alarm" = .absent := by
  have hshared : (⟨0⟩ : StoreRef).index < watchBank.stores.length := by decide
  have hadmits : (Site.start ⟨0⟩ (.ofPicks []) watchBank).AdmitsAll watch := by decide
  obtain ⟨_, hagents, hcalledOff, _⟩ :=
    Site.latest_write_decides ⟨0⟩ (.ofPicks []) watchBank watch hshared hadmits
  exact ⟨hshared, hadmits, (hagents _ _).trans (by rfl),
    ((hcalledOff "alarm").2 (by rfl)).trans (by rfl)⟩

/-- An alarm is raised for one unit of time. Nobody comes and goes, and the time is over. -/
def recalled : List Operation :=
  [.triggerImmediate (alarm (some (.ofRank false 1))), .register none none, .unregister none,
    .tick (.ofRank false 5)]

/-- The alarm was promised to be over, but it was called off to take it back: it stays for good. -/
theorem recalledAlarm_stays :
    let begun := Site.start ⟨0⟩ (.ofPicks []) watchBank
    let past := ((Chronicle.start (watchBank.get ⟨0⟩)).recordAll begun recalled).past
    begun.AdmitsAll recalled ∧ past.asPromised.fateOf none "alarm" [] = .absent ∧
      (begun.run recalled).fate none "alarm" = ⟨some (Double.toSingle (.ofInt 1)), none⟩ ∧
      past.isCalledOff "alarm" = true := by
  decide +kernel

end FactRules
