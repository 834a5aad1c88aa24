import FactRules.Proofs.Keeper.LatestWrite
import FactRules.Proofs.Keeper.Request
import FactRules.Proofs.Reading.ActionText

/-!
# Facts of the shared store

A host may leave the shared store to the keeper (`Site.Grants`): its actions are read from texts, it
ticks at finite times, and no agent gets the shared store. Agents may share stores with one another
then, the host may write to their stores, and nobody may come and go like an agent.
`Shares.heedAll` says that whatever it requests, the history of the run tells what becomes of the
facts of the shared store (`Ledger.Tells`).
-/

namespace FactRules

/-! ## Actions that are read from texts -/

/-- Some text is read as the action. -/
def Action.IsRead (action : Action) : Prop := ∃ text, Action.ofText text = .ok action

/-- What is read is proper. -/
theorem Action.IsRead.isProper {action : Action} (h : action.IsRead) : action.IsProper := by
  obtain ⟨text, htext⟩ := h
  exact (written_of_ofText htext).isProper

/-- The time to live of a fact that is read is a number. -/
theorem Action.IsRead.isTimed {action : Action} (h : action.IsRead) : action.IsTimed := by
  cases action with
  | randomText choices => trivial
  | addFact scope key value ttl =>
    obtain ⟨_, _, hseconds⟩ := h.isProper
    cases ttl with
    | none => trivial
    | some seconds => exact (hseconds seconds rfl).1

namespace History

variable {past : History}

/-- Every write was of the value one. -/
def WritesOne (past : History) : Prop :=
  ∀ owner key value due, .wrote owner key value due ∈ past → value = .ofInt 1

/-- All writes write one if the last happening does, in case it is a write. -/
theorem WritesOne.cons (h : past.WritesOne) {happening : Happening}
    (hone : ∀ owner key value due, happening = .wrote owner key value due → value = .ofInt 1) :
    WritesOne (happening :: past) := by
  intro owner key value due hmem
  rcases List.mem_cons.1 hmem with heq | hmem
  · exact hone owner key value due heq.symm
  · exact h owner key value due hmem

/-- An action for an agent writes no fact of the shared store. -/
theorem fateOf_none_act_agent (time : Double) (agent : Option AgentId) (past : History)
    (key : String) (value : Double) (ttl : Option Double) (k : String) :
    (past.act time agent (.addFact .agent key value ttl)).fateOf none k [] =
      past.fateOf none k [] := by
  rw [act]
  split
  · next hopen =>
    cases agent with
    | none => cases hopen.1
    | some id => rw [fateOf, if_neg fun h => by cases h.1]
  · rfl

/-- An action that is read writes the value one, if it writes. -/
theorem WritesOne.act (h : past.WritesOne) {action : Action} (hread : action.IsRead)
    (time : Double) (agent : Option AgentId) : (past.act time agent action).WritesOne := by
  cases action with
  | randomText choices => exact h
  | addFact scope key value ttl =>
    have hcons : ∀ owner due, WritesOne (.wrote owner key value due :: past) := by
      refine fun owner due => h.cons fun _ _ _ _ heq => ?_
      cases heq
      exact hread.isProper.2.1
    cases scope with
    | everyone => exact hcons _ _
    | agent =>
      rw [History.act]
      split
      · exact hcons _ _
      · exact h

end History

/-! ## What a ledger tells of the shared store -/

/-- No agent has the shared store. -/
def Keeper.Apart (keeper : Keeper) : Prop :=
  ∀ agent, keeper.ownedStore? (some agent) ≠ some keeper.shared

/-- Of the owners only nobody has a shared store that no agent has. -/
theorem Keeper.Apart.ownedStore?_eq_iff {keeper : Keeper} (h : keeper.Apart)
    {owner : Option AgentId} : keeper.ownedStore? owner = some keeper.shared ↔ owner = none := by
  constructor
  · intro howner
    cases owner with
    | none => rfl
    | some agent => exact absurd howner (h agent)
  · rintro rfl
    rfl

/-- The ledger after what is to be taken back for an owner is called off. -/
def Ledger.callOff (owner : Option AgentId) (ledger : Ledger) : Ledger where
  facts := ledger.facts
  due retraction := if retraction.owner = owner then none else ledger.due retraction

/-- A history tells the fates of the facts in a store that belongs to nobody in particular. All
facts were written with the value one. -/
structure Ledger.Tells (ledger : Ledger) (store : StoreRef) (past : History) : Prop where
  told : ∀ key, past.fateOf none key [] = ⟨(ledger.facts store).lookup? key, ledger.due ⟨key, none⟩⟩
  ones : past.WritesOne

namespace Ledger.Tells

variable {keeper : Keeper} {ledger : Ledger} {past : History}

/-- An action is recorded as it is carried out. -/
theorem act (h : ledger.Tells keeper.shared past) (hapart : keeper.Apart) {action : Action}
    (hread : action.IsRead) (agent : Option AgentId) :
    (ledger.act keeper agent action).Tells keeper.shared (past.act keeper.now agent action) := by
  refine ⟨fun k => ?_, h.ones.act hread _ _⟩
  cases action with
  | randomText choices => exact h.told k
  | addFact scope key value ttl =>
    cases scope with
    | everyone =>
      have hact : ledger.act keeper agent (.addFact .everyone key value ttl) =
          ledger.write none keeper.shared key value (ttl.map keeper.now.add) := rfl
      rw [hact, Ledger.write, History.act, History.fateOf]
      simp only [if_pos, FactStore.lookup?_add, true_and, Retraction.mk.injEq, and_true]
      split
      · simp
      · exact h.told k
    | agent =>
      rw [History.fateOf_none_act_agent, h.told]
      cases agent with
      | none => rfl
      | some id =>
        cases hstore : keeper.ownedStore? (some id) with
        | none => simp only [Ledger.act, Scope.owner?, Option.map_some, hstore]
        | some store =>
          have hne : store ≠ keeper.shared := by
            rintro rfl
            exact hapart id hstore
          simp [Ledger.act, Scope.owner?, hstore, Ledger.write, hne]

/-- An event is recorded as it is carried out. -/
theorem apply (h : ledger.Tells keeper.shared past) (hapart : keeper.Apart) {event : Event}
    (hread : ∀ action ∈ event.actions, action.IsRead) :
    (ledger.apply keeper event).Tells keeper.shared (past.apply keeper.now event) := by
  rw [Ledger.apply, History.apply]
  generalize event.actions = actions at hread
  induction actions generalizing ledger past with
  | nil => exact h
  | cons action rest ih =>
    exact ih (h.act hapart (hread action (List.mem_cons_self ..)) event.agent)
      fun other hmem => hread other (List.mem_cons_of_mem _ hmem)

/-- Events are recorded as they are carried out. -/
theorem applyAll (h : ledger.Tells keeper.shared past) (hapart : keeper.Apart)
    {events : List Event} (hread : ∀ event ∈ events, ∀ action ∈ event.actions, action.IsRead) :
    (events.foldl (Ledger.apply keeper) ledger).Tells keeper.shared
      (events.foldl (History.apply keeper.now) past) := by
  induction events generalizing ledger past with
  | nil => exact h
  | cons event rest ih =>
    exact ih (h.apply hapart (hread event (List.mem_cons_self ..)))
      fun other hmem => hread other (List.mem_cons_of_mem _ hmem)

/-- Taking back what is due is recorded as a tick. -/
theorem expire (h : ledger.Tells keeper.shared past) (hapart : keeper.Apart) (now : Double) :
    (ledger.expire keeper now).Tells keeper.shared (.ticked now :: past) := by
  refine ⟨fun key => ?_, h.ones.cons fun _ _ _ _ heq => by cases heq⟩
  have honly (other : Option AgentId) (hother : keeper.ownedStore? other = some keeper.shared) :
      other = none := hapart.ownedStore?_eq_iff.1 hother
  have hshared : keeper.ownedStore? none = some keeper.shared := rfl
  rw [History.fateOf_ticked, h.told, Ledger.lookup?_expire, Ledger.isDue_of_owner hshared honly]
  rfl

/-- A ledger that says the same of the store is told by the same history. -/
theorem congr {other : Ledger} {store : StoreRef} (h : ledger.Tells store past)
    (hfacts : other.facts store = ledger.facts store)
    (hdue : ∀ key, other.due ⟨key, none⟩ = ledger.due ⟨key, none⟩) : other.Tells store past := by
  refine ⟨fun key => ?_, h.ones⟩
  rw [h.told, hfacts, hdue]

/-- Who is registered is nothing to the shared store. -/
theorem registered {store : StoreRef} (h : ledger.Tells store past) (agent : Option AgentId)
    (facts : FactStore) : ledger.Tells store (.registered agent facts :: past) := by
  refine ⟨fun key => ?_, h.ones.cons fun _ _ _ _ heq => by cases heq⟩
  rw [History.fateOf, if_neg]
  · exact h.told key
  · rintro ⟨rfl, hsome⟩
    cases hsome

/-- Nor is which agent is unregistered. Unregistering nobody leaves the facts of the shared store,
and none of them is to be taken back. -/
theorem unregistered {store : StoreRef} (h : ledger.Tells store past) (agent : Option AgentId) :
    (ledger.callOff agent).Tells store (.unregistered agent :: past) := by
  refine ⟨fun key => ?_, h.ones.cons fun _ _ _ _ heq => by cases heq⟩
  rw [History.fateOf, h.told, Ledger.callOff]
  cases agent with
  | none => rfl
  | some id => rfl

end Ledger.Tells

/-! ## Runs that leave the shared store to the keeper -/

/-- Whether a host lets the keeper alone with the shared store: actions are read from texts, times
are finite numbers, the shared store is not registered for an agent and not written to. -/
def Site.Grants (site : Site) : Request → Prop
  | .operation (.register (some agent) (some store)) =>
    site.keeper.agents.get? (some agent) = none → store ≠ site.keeper.shared
  | .operation (.trigger event) | .operation (.triggerImmediate event) =>
    ∀ action ∈ event.actions, action.IsRead
  | .operation (.respond rules ..) =>
    ∀ rule ∈ rules.rules, ∀ action ∈ rule.response.now, action.IsRead
  | .operation (.tick now) => now.isFinite
  | .put store _ => store ≠ site.keeper.shared
  | .operation (.register (some _) none) | .operation (.register none _)
  | .operation (.unregister _) => True

/-- Whether a host does so in requests, one after the other. -/
def Site.GrantsAll : Site → List Request → Prop
  | _, [] => True
  | site, request :: rest => site.Grants request ∧ (site.heed request).GrantsAll rest

namespace Chronicle

/-- Records a request: of those, operations alone are heard of. -/
def note (chronicle : Chronicle) (site : Site) : Request → Chronicle
  | .operation operation => chronicle.record site operation
  | .put .. => chronicle

/-- Records the requests that a site gets one after the other. -/
def noteAll : Chronicle → Site → List Request → Chronicle
  | chronicle, _, [] => chronicle
  | chronicle, site, request :: rest =>
    (chronicle.note site request).noteAll (site.heed request) rest

end Chronicle

namespace Site

variable {site : Site} {chronicle : Chronicle}

/-- A chronicle tells what becomes of the facts of the shared store. -/
structure Shares (site : Site) (chronicle : Chronicle) : Prop where
  steady : site.Steady
  timely : site.keeper.retractions.Timely
  apart : site.keeper.Apart
  held : site.keeper.shared.index < site.bank.stores.length
  opened : ∀ agent, site.keeper.agents.contains agent = chronicle.past.isOpen agent
  tells : site.ledger.Tells site.keeper.shared chronicle.past
  now_eq : site.keeper.now = chronicle.past.now
  queue_eq : site.keeper.queue = chronicle.waiting
  finite : site.keeper.now.isFinite = true
  read : ∀ event ∈ site.keeper.queue, ∀ action ∈ event.actions, action.IsRead

namespace Shares

/-- Without agents, nobody has the shared store but the keeper, and its facts are those that it
began with. -/
theorem start {shared : StoreRef} {bank : Bank} (hshared : shared.index < bank.stores.length)
    (dice : Dice) : (Site.start shared dice bank).Shares (.start (bank.get shared)) where
  steady := .ofShared shared dice bank
  timely := .empty
  apart agent howner := by cases howner
  held := hshared
  opened agent := rfl
  tells := ⟨fun key => rfl, fun owner key value due hmem => by
    cases hmem with
    | tail _ h => cases h⟩
  now_eq := rfl
  queue_eq := rfl
  finite := isFinite_now_start ..
  read event hmem := by cases hmem

/-- A tick succeeds and is recorded. -/
theorem tick (h : site.Shares chronicle) {now : Double} (hnow : now.isFinite = true) :
    ∃ after notices, site.tick now = .ok (after, notices) ∧
      after.Shares
        ⟨[], .ticked now :: chronicle.waiting.foldl (History.apply now) chronicle.past⟩ := by
  obtain ⟨after, notices, _, htick, hkeeper, hsteady, hlength, _, _, htimely⟩ :=
    h.steady.tick now
  obtain ⟨htimely, hledger⟩ := htimely h.timely
    fun event hevent action haction => (h.read event hevent action haction).isTimed.isDueFrom hnow
  let moved : Keeper := { site.keeper with now }
  have hapart : moved.Apart := h.apart
  have htells : site.ledger.Tells moved.shared chronicle.past := h.tells
  have hexpired := (htells.applyAll hapart h.read).expire hapart now
  have hshared : after.keeper.shared = site.keeper.shared := by rw [hkeeper]
  have hnowAfter : after.keeper.now = now := by rw [hkeeper]
  have hqueueAfter : after.keeper.queue = [] := by rw [hkeeper]
  refine ⟨after, notices, htick, hsteady, htimely, ?apart, ?held, ?opened, ?tells, hnowAfter,
    hqueueAfter, hnowAfter ▸ hnow, ?read⟩
  case apart =>
    rw [hkeeper]
    exact h.apart
  case held =>
    rw [hshared]
    exact Nat.lt_of_lt_of_le h.held hlength
  case opened =>
    intro agent
    rw [hkeeper, History.isOpen, History.isOpen_applyAll]
    exact h.opened agent
  case tells =>
    rw [hledger, hshared, ← h.queue_eq]
    exact hexpired
  case read =>
    rw [hqueueAfter]
    intro event hmem
    cases hmem

/-- Applying an event at once succeeds and is recorded. -/
theorem applyEvent (h : site.Shares chronicle) {event : Event}
    (hread : ∀ action ∈ event.actions, action.IsRead) :
    ∃ after notices, site.applyEvent event = .ok (after, notices) ∧
      after.Shares { chronicle with past := chronicle.past.apply chronicle.past.now event } := by
  obtain ⟨after, notices, happly, hleads⟩ := h.steady.applyEvent event
  have htells := h.tells.apply h.apart hread
  have hkeeper := hleads.keeper
  have hshared : after.keeper.shared = site.keeper.shared := by rw [hkeeper]
  have hnowAfter : after.keeper.now = site.keeper.now := by rw [hkeeper]
  have hqueueAfter : after.keeper.queue = site.keeper.queue := by rw [hkeeper]
  refine ⟨after, notices, happly, hleads.steady,
    hleads.timely (fun action hmem => (hread action hmem).isTimed.isDueFrom h.finite) h.timely,
    ?apart, ?held, ?opened, ?tells, ?now, hqueueAfter.trans h.queue_eq, hnowAfter ▸ h.finite,
    hqueueAfter ▸ h.read⟩
  case apart =>
    rw [hkeeper]
    exact h.apart
  case held =>
    rw [hshared]
    exact Nat.lt_of_lt_of_le h.held hleads.length
  case opened =>
    intro agent
    rw [hkeeper, History.isOpen_apply]
    exact h.opened agent
  case tells =>
    rw [hleads.ledger, hshared, ← h.now_eq]
    exact htells
  case now => rw [hnowAfter, History.now_apply, h.now_eq]

/-- An event that is queued waits for the next tick. -/
theorem enqueue (h : site.Shares chronicle) {event : Event}
    (hread : ∀ action ∈ event.actions, action.IsRead) (dice : Dice) :
    Shares ⟨{ site.keeper with queue := site.keeper.queue ++ [event], dice }, site.bank⟩
      { chronicle with waiting := chronicle.waiting ++ [event] } where
  steady := h.steady.congr _ _ _ _
  timely := h.timely
  apart := h.apart
  held := h.held
  opened := h.opened
  tells := h.tells
  now_eq := h.now_eq
  queue_eq := congrArg (· ++ [event]) h.queue_eq
  finite := h.finite
  read other hmem := by
    rcases List.mem_append.1 hmem with hmem | hmem
    · exact h.read other hmem
    · obtain rfl := List.mem_singleton.1 hmem
      exact hread

/-- What leaves the time and the queue as they are is followed by what it adds to the history. -/
theorem move (h : site.Shares chronicle) {agents : OrderedMap (Option AgentId) StoreRef}
    {retractions : Schedule Retraction} {bank : Bank} {past : History}
    (hsteady : Steady ⟨{ site.keeper with agents, retractions }, bank⟩)
    (htimely : retractions.Timely)
    (hapart : Keeper.Apart { site.keeper with agents, retractions })
    (hlength : site.bank.stores.length ≤ bank.stores.length)
    (hopened : ∀ agent, agents.contains agent = past.isOpen agent)
    (htells : Ledger.Tells ⟨bank.get, retractions.dueTime?⟩ site.keeper.shared past)
    (hnow : past.now = chronicle.past.now) :
    Shares ⟨{ site.keeper with agents, retractions }, bank⟩ { chronicle with past } where
  steady := hsteady
  timely := htimely
  apart := hapart
  held := Nat.lt_of_lt_of_le h.held hlength
  opened := hopened
  tells := htells
  now_eq := h.now_eq.trans hnow.symm
  queue_eq := h.queue_eq
  finite := h.finite
  read := h.read

/-- Registering whoever is new is recorded, and it leaves the shared store alone if no agent gets
it. -/
theorem register (h : site.Shares chronicle) {agent : Option AgentId} {store : Option StoreRef}
    (hnew : site.keeper.agents.get? agent = none)
    (hgrants : site.Grants (.operation (.register agent store))) :
    ∃ after ref, site.register agent store = .ok (after, ref) ∧
      after.Shares { chronicle with
        past := .registered agent (site.offered store) :: chronicle.past } := by
  obtain ⟨bank, hregister, hbank, hlength, _⟩ := register_ok hnew store
  obtain ⟨_, _, hsteady, hafter, _⟩ := h.steady.register hnew store
  cases hregister.symm.trans hsteady
  have htells : Ledger.Tells ⟨bank.get, site.keeper.retractions.dueTime?⟩ site.keeper.shared
      chronicle.past := h.tells.congr (hbank _) fun _ => rfl
  refine ⟨_, _, hregister,
    h.move hafter h.timely ?apart hlength ?opened (htells.registered _ _) rfl⟩
  case apart =>
    intro other howned
    rw [Keeper.ownedStore?_insert] at howned
    split at howned
    · next heq =>
      obtain ⟨rfl, _⟩ := heq
      have hshared := Option.some.inj howned
      cases store with
      | none => exact Nat.ne_of_gt h.held (congrArg StoreRef.index hshared)
      | some ref => exact hgrants hnew hshared
    · exact h.apart other howned
  case opened =>
    intro other
    rw [OrderedMap.contains_insert, History.isOpen, h.opened]

/-- Unregistering is recorded. It leaves the facts of the shared store alone, and what is to be
taken back of them, too, if it is an agent that is unregistered. -/
theorem unregister (h : site.Shares chronicle) {agent : Option AgentId} {store : StoreRef}
    (hstore : site.keeper.agents.get? agent = some store) :
    ∃ keeper, site.keeper.unregister agent = .ok keeper ∧
      Shares ⟨keeper, site.bank⟩
        { chronicle with past := .unregistered agent :: chronicle.past } := by
  obtain ⟨left, hunregister, _, htimely, hdue⟩ := unregister_ok h.steady.sound hstore
  obtain ⟨_, hsteady, hafter, _⟩ := h.steady.unregister hstore
  cases hunregister.symm.trans hsteady
  have hledger : (⟨site.bank.get, left.dueTime?⟩ : Ledger) = site.ledger.callOff agent :=
    congrArg (Ledger.mk _) (funext hdue)
  refine ⟨_, hunregister, h.move hafter (htimely h.timely) ?apart (Nat.le_refl _) ?opened
    (hledger ▸ h.tells.unregistered agent) rfl⟩
  case apart =>
    intro other howned
    rw [Keeper.ownedStore?_erase] at howned
    split at howned
    · cases howned
    · exact h.apart other howned
  case opened =>
    intro other
    rw [OrderedMap.contains_erase, History.isOpen, h.opened]

/-- A response is queued as its actions for now; other answers leave the facts and the queue. -/
theorem respond (h : site.Shares chronicle) {rules : RuleSet} {concept : Concept}
    {agent : Option AgentId} {extra : List (String × Double)}
    (hread : ∀ rule ∈ rules.rules, ∀ action ∈ rule.response.now, action.IsRead)
    {after : Site} {reply : Reply}
    (hrespond : site.respond rules concept agent extra = .ok (after, reply)) :
    after.Shares (chronicle.record site (.respond rules concept agent extra)) := by
  obtain ⟨response, asked, notices⟩ := reply
  simp only [Chronicle.record, hrespond]
  obtain ⟨dice, ⟨hnone, rfl⟩ | ⟨rule, hrule, hsome, rfl⟩⟩ := respond_cases hrespond
  · cases hnone
    exact ⟨h.steady.congr _ _ _ _, h.timely, h.apart, h.held, h.opened, h.tells, h.now_eq,
      h.queue_eq, h.finite, h.read⟩
  · cases hsome
    exact h.enqueue (hread rule hrule) dice

/-- A refused request is not recorded. -/
theorem note_refused (h : site.Shares chronicle) {request : Request} {error : KeeperError}
    (hrefusal : site.keeper.refusal? request = some error) :
    chronicle.note site request = chronicle := by
  cases request with
  | put store facts => cases hrefusal
  | operation operation =>
    cases operation with
    | register agent store =>
      have hopen := (Keeper.taken?_eq_some_iff.1 hrefusal).1
      rw [h.opened] at hopen
      rw [Chronicle.note, Chronicle.record, if_pos hopen]
    | unregister agent =>
      have hmissing := (Keeper.missing?_eq_some_iff.1 hrefusal).1
      have hclosed : chronicle.past.isOpen agent = false := by
        rw [← h.opened, OrderedMap.contains, hmissing]
        rfl
      rw [Chronicle.note, Chronicle.record, if_neg (Bool.eq_false_iff.1 hclosed)]
    | respond rules concept agent extra =>
      have hrespond : site.respond rules concept agent extra = .error error :=
        respond_error (Keeper.ask_eq_error_iff.2 hrefusal)
      simp only [Chronicle.note, Chronicle.record, hrespond]
    | trigger event => cases hrefusal
    | triggerImmediate event => cases hrefusal
    | tick now => cases hrefusal

/-- A request that is not refused is recorded as it is carried out. -/
theorem heed_accepted (h : site.Shares chronicle) {request : Request}
    (hgrants : site.Grants request) (hrefusal : site.keeper.refusal? request = none) :
    (site.heed request).Shares (chronicle.note site request) := by
  suffices hserve : ∃ after, site.serve request = .ok after ∧
      after.Shares (chronicle.note site request) by
    obtain ⟨after, hserve, hafter⟩ := hserve
    rw [heed_ok hserve]
    exact hafter
  cases request with
  | put store facts =>
    have hfacts : (site.bank.put store facts).get site.keeper.shared =
        site.bank.get site.keeper.shared := (Bank.get_put ..).trans (if_neg hgrants)
    exact ⟨_, rfl, h.move ⟨h.steady.sound, h.steady.owned⟩ h.timely h.apart
      (Bank.length_le_put ..) h.opened (h.tells.congr hfacts fun _ => rfl) rfl⟩
  | operation operation =>
    cases operation with
    | register agent store =>
      have hnew := Keeper.get?_of_taken?_eq_none hrefusal
      have hclosed : chronicle.past.isOpen agent = false := by
        rw [← h.opened, OrderedMap.contains, hnew]
        rfl
      obtain ⟨after, ref, hregister, hafter⟩ := h.register hnew hgrants
      rw [Chronicle.note, Chronicle.record, if_neg (Bool.eq_false_iff.1 hclosed)]
      exact ⟨after, map_eq_ok.2 ⟨_, hregister, rfl⟩, hafter⟩
    | unregister agent =>
      obtain ⟨store, hstore⟩ := Keeper.get?_of_missing?_eq_none hrefusal
      have hopen : chronicle.past.isOpen agent = true := by
        rw [← h.opened, OrderedMap.contains, hstore]
        rfl
      obtain ⟨keeper, hunregister, hafter⟩ := h.unregister hstore
      rw [Chronicle.note, Chronicle.record, if_pos hopen]
      exact ⟨_, map_eq_ok.2 ⟨_, hunregister, rfl⟩, hafter⟩
    | trigger event => exact ⟨_, rfl, h.enqueue hgrants site.keeper.dice⟩
    | triggerImmediate event =>
      obtain ⟨after, notices, happly, hafter⟩ := h.applyEvent hgrants
      exact ⟨after, map_eq_ok.2 ⟨_, happly, rfl⟩, hafter⟩
    | respond rules concept agent extra =>
      obtain ⟨after, hserve, _⟩ := h.steady.serve hrefusal
      obtain ⟨⟨next, reply⟩, hrespond, rfl⟩ := map_eq_ok.1 hserve
      exact ⟨next, hserve, h.respond hgrants hrespond⟩
    | tick now =>
      obtain ⟨after, notices, htick, hafter⟩ := h.tick hgrants
      exact ⟨after, map_eq_ok.2 ⟨_, htick, rfl⟩, hafter⟩

/-- Each request that grants the keeper the shared store is recorded as it is carried out. -/
theorem heed (h : site.Shares chronicle) {request : Request} (hgrants : site.Grants request) :
    (site.heed request).Shares (chronicle.note site request) := by
  cases hrefusal : site.keeper.refusal? request with
  | some error =>
    rw [heed_error (serve_error hrefusal), h.note_refused hrefusal]
    exact h
  | none => exact h.heed_accepted hgrants hrefusal

/-- Requests that grant the keeper the shared store are recorded as they are carried out. -/
theorem heedAll (h : site.Shares chronicle) {requests : List Request}
    (hgrants : site.GrantsAll requests) :
    (site.heedAll requests).Shares (chronicle.noteAll site requests) := by
  induction requests generalizing site chronicle with
  | nil => exact h
  | cons request rest ih => exact ih (h.heed hgrants.1) hgrants.2

end Shares

end Site

end FactRules
