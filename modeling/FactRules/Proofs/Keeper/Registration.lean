import FactRules.Proofs.Keeper.Writes

/-!
# Agents that are registered again

What is to be taken back for an agent is called off when the agent is unregistered. Events that wait
for it are not: they name the agent, and its store is looked for when they are applied. So an agent
that is registered again with a store of its own inherits nothing that was to be taken back, but it
inherits the events that still wait, if no tick came meanwhile. `Site.registered_again` says so of
every request after that: it does not matter what comes before, between and after, which times there
are and who shares other stores.

The events that wait are the latest of those that were queued (`Site.queue_suffix`): a tick leaves
none of those from before.
-/

namespace FactRules

/-- Whether a request moves time on. -/
def Request.isTick : Request → Bool
  | .operation (.tick _) => true
  | _ => false

/-- A request registers a store for nobody but the agent. -/
def Request.Spares (agent : AgentId) (store : StoreRef) : Request → Prop
  | .operation (.register (some other) (some given)) => given = store → other = agent
  | _ => True

instance (agent : AgentId) (store : StoreRef) : DecidablePred (Request.Spares agent store)
  | .operation (.register (some other) (some given)) =>
    inferInstanceAs (Decidable (given = store → other = agent))
  | .operation (.register none _) | .operation (.register (some _) none)
  | .operation (.unregister _) | .operation (.trigger _) | .operation (.triggerImmediate _)
  | .operation (.respond ..) | .operation (.tick _) | .put .. => .isTrue trivial

namespace Site

variable {site : Site}

/-! ## Which events wait -/

/-- The events that requests queue that are made one after the other. -/
def queuedAll : Site → List Request → List Event
  | _, [] => []
  | site, request :: rest => site.queued request ++ (site.heed request).queuedAll rest

/-- The events that may wait after requests: those that are queued by them, and those that waited
before if no tick is among them. -/
def waitingAfter (site : Site) (requests : List Request) : List Event :=
  (if requests.any Request.isTick then [] else site.keeper.queue) ++ site.queuedAll requests

/-- A tick lets no event go on waiting, other requests let all. -/
theorem kept_eq (site : Site) (request : Request) :
    site.kept request = if request.isTick then [] else site.keeper.queue := by
  cases request with
  | operation operation => cases operation <;> rfl
  | put store facts => rfl

/-- The events that wait are the latest of those that may wait. -/
theorem queue_suffix (h : site.Steady) (requests : List Request) :
    (site.heedAll requests).keeper.queue <:+ site.waitingAfter requests := by
  induction requests generalizing site with
  | nil => exact (List.append_nil site.keeper.queue).symm ▸ List.suffix_rfl
  | cons request rest ih =>
    obtain ⟨due, hyields⟩ := h.yields request
    refine (ih (h.heed request).1).trans ?_
    rw [waitingAfter, waitingAfter, queuedAll, hyields.queue, kept_eq, List.any_cons]
    cases rest.any Request.isTick with
    | true =>
      rw [Bool.or_true, if_pos rfl, if_pos rfl, List.nil_append, List.nil_append]
      exact List.suffix_append ..
    | false => simp

/-! ## Stores of one agent -/

/-- A store of the bank that belongs to an agent alone. -/
def IsOwn (site : Site) (agent : AgentId) (store : StoreRef) : Prop :=
  store.index < site.bank.stores.length ∧
    ∀ owner ∈ site.keeper.owners, site.keeper.ownedStore? owner = some store → owner = some agent

instance (site : Site) (agent : AgentId) (store : StoreRef) : Decidable (site.IsOwn agent store) :=
  inferInstanceAs (Decidable (_ ∧ _))

namespace IsOwn

variable {agent : AgentId} {store : StoreRef}

/-- Whoever has an agent's own store is this agent. -/
theorem owner_eq (h : site.IsOwn agent store) {owner : Option AgentId}
    (howner : site.keeper.ownedStore? owner = some store) : owner = some agent :=
  h.2 owner (Keeper.mem_owners howner) howner

/-- It goes on belonging to the agent alone while nobody else is registered with it. -/
theorem heed (h : site.IsOwn agent store) (hsteady : site.Steady) {request : Request}
    (hspared : request.Spares agent store) : (site.heed request).IsOwn agent store := by
  obtain ⟨due, hyields⟩ := hsteady.yields request
  refine ⟨Nat.lt_of_lt_of_le h.1 hyields.length, fun owner _ howner => ?_⟩
  rcases hyields.owned howner with hbefore | ⟨other, given, rfl, rfl, rfl⟩
  · exact h.owner_eq hbefore
  · cases given with
    | none => exact absurd h.1 (Nat.lt_irrefl _)
    | some given => exact congrArg some (hspared rfl)

/-- It goes on so through requests none of which registers somebody else with the store. -/
theorem heedAll (h : site.IsOwn agent store) (hsteady : site.Steady) {requests : List Request}
    (hspared : ∀ request ∈ requests, request.Spares agent store) :
    (site.heedAll requests).IsOwn agent store := by
  induction requests generalizing site with
  | nil => exact h
  | cons request rest ih =>
    exact ih (h.heed hsteady (hspared request (List.mem_cons_self ..))) (hsteady.heed request).1
      fun other hmem => hspared other (List.mem_cons_of_mem _ hmem)

end IsOwn

/-! ## What a request does to the store of an agent -/

/-- What a request does to the store of an agent, given what was written through the agent since
some point and which events may wait since then. The store holds what the host put into it and what
the request writes, but for some keys that are taken back. -/
structure TouchesOnly (site : Site) (agent : AgentId) (store : StoreRef) (log : List Written)
    (waiting : List Event) (request : Request) (taken : String → Bool) : Prop where
  facts : (site.heed request).bank.get store =
    (((site.written request).filter (·.store = store)).foldl
      (fun facts write => facts.add write.key write.value)
      ((site.handed request).get store)).removeWhere taken
  /-- What is written is of an event for the agent. -/
  writes : ∀ write ∈ site.written request, write.store = store →
    ∃ event ∈ site.applied request, event.agent = some agent ∧
      write ∈ (site.moved request).writes event
  /-- The event is triggered by the request itself or is among those that may wait. -/
  applied : (∃ event, request = .operation (.triggerImmediate event)) ∨
    site.applied request <:+ waiting
  /-- What is taken back was scheduled by the latest write to the key since then. -/
  due : ∀ key, taken key = true → ∃ now, request = .operation (.tick now) ∧
    ∃ write, Written.latest? (·.retraction = ⟨key, some agent⟩) (log ++ site.written request) =
        some write ∧
      write.store = store ∧ write.due.any (·.le now) = true

/-- A request applies an event at once, or events that wait. -/
theorem applied_suffix (site : Site) (request : Request) :
    (∃ event, request = .operation (.triggerImmediate event)) ∨
      site.applied request <:+ site.keeper.queue := by
  cases request with
  | put store facts => exact .inr (List.nil_suffix)
  | operation operation =>
    cases operation with
    | triggerImmediate event => exact .inl ⟨event, rfl⟩
    | tick now => exact .inr List.suffix_rfl
    | register agent store | unregister agent | trigger event | respond rules concept agent extra =>
      exact .inr List.nil_suffix

/-- A request touches an agent's own store through this agent alone: what it writes is of an event
for the agent, and what it takes back was written through the agent. What it takes back is read off
the traced log, in which the due time of each fact is that of its latest write. -/
theorem IsOwn.touchesOnly {agent : AgentId} {store : StoreRef} {log : List Written}
    {waiting : List Event} (h : site.IsOwn agent store) (hsteady : site.Steady)
    (htraced : site.Traced log (some agent)) (hwaiting : site.keeper.queue <:+ waiting)
    (request : Request) : ∃ taken, site.TouchesOnly agent store log waiting request taken := by
  obtain ⟨due, hyields⟩ := hsteady.yields request
  refine ⟨fun key => due.any fun retraction =>
      decide (site.keeper.ownedStore? retraction.owner = some store ∧ retraction.key = key),
    ?facts, fun write hwrite hstore => ?_,
    (site.applied_suffix request).imp_right (·.trans hwaiting), fun key htaken => ?_⟩
  case facts =>
    rw [hyields.facts]
    simp only [Ledger.takeBack, entered, Ledger.facts_foldl_enter]
  · obtain ⟨howned, event, hevent, hof, howner⟩ := of_mem_written hwrite
    have hagent := h.owner_eq (hstore ▸ howned)
    rcases howner with hnone | heq
    · rw [hnone] at hagent
      cases hagent
    · exact ⟨event, hevent, heq.symm.trans hagent, hof⟩
  · obtain ⟨⟨_, owner⟩, hmem, hfor⟩ := List.any_eq_true.1 htaken
    obtain ⟨howner, rfl⟩ := of_decide_eq_true hfor
    obtain rfl := h.owner_eq howner
    obtain ⟨now, rfl, time, htime, hle⟩ := hyields.isDue _ hmem
    obtain ⟨write, hlatest, hdue, howned⟩ := htraced.entered htime
    refine ⟨now, rfl, write, hlatest, Option.some.inj (howned.symm.trans howner), ?_⟩
    rw [hdue]
    exact hle

/-! ## Unregistering and registering again -/

/-- Nothing is to be taken back for an agent that was unregistered. -/
theorem Steady.traced_unregister (h : site.Steady) {agent : AgentId} {left : Site}
    (hleft : site.serve (.operation (.unregister (some agent))) = .ok left) :
    left.Steady ∧ left.Traced [] (some agent) := by
  have hheed := (h.heed (.operation (.unregister (some agent)))).1
  rw [heed_ok hleft] at hheed
  refine ⟨hheed, fun key time htime => ?_⟩
  obtain ⟨keeper, hunregister, rfl⟩ := map_eq_ok.1 hleft
  cases hstore : site.keeper.agents.get? (some agent) with
  | none =>
    rw [Keeper.unregister, Keeper.storeOf, hstore] at hunregister
    cases hunregister
  | some store =>
    obtain ⟨retractions, hdone, _, _, hdue⟩ := unregister_ok h.sound hstore
    cases hdone.symm.trans hunregister
    rw [hdue, if_pos rfl] at htime
    cases htime

/-- An agent is unregistered and, some requests later, registered with a store that belongs to it
alone, as it does from then on. Then a key is taken back from the store only if the latest write to
it since the unregistration went to this store and is over, and only events for the agent are
applied to it, which were triggered since the unregistration or, if no tick came since then, waited
at it. -/
theorem registered_again (shared : StoreRef) (dice : Dice) (bank : Bank)
    (before between after : List Request) (agent : AgentId) (given : Option StoreRef)
    {left begun : Site} {store : StoreRef}
    (hleft : ((start shared dice bank).heedAll before).serve
      (.operation (.unregister (some agent))) = .ok left)
    (hbegun : (left.heedAll between).register (some agent) given = .ok (begun, store))
    (hown : begun.IsOwn agent store)
    (hspared : ∀ request ∈ after, request.Spares agent store) (request : Request) :
    let since := between ++ .operation (.register (some agent) given) :: after
    ∃ taken, (begun.heedAll after).TouchesOnly agent store (left.writtenAll since)
      (left.waitingAfter since) request taken := by
  intro since
  have hbefore := ((Steady.ofShared shared dice bank).heedAll before).1
  -- Nothing is pending for the agent once it is unregistered, so its log begins anew there.
  obtain ⟨hsteady, htraced⟩ := hbefore.traced_unregister hleft
  have hregister :
      (left.heedAll between).heed (.operation (.register (some agent) given)) = begun :=
    heed_ok (map_eq_ok.2 ⟨_, hbegun, rfl⟩)
  have hsince : left.heedAll since = begun.heedAll after := by
    rw [heedAll_append, ← hregister]
    rfl
  have hbegunSteady : begun.Steady := by
    rw [← hregister]
    exact ((hsteady.heedAll between).1.heed _).1
  have hownAfter := hown.heedAll hbegunSteady hspared
  have hsteadyAfter := (hbegunSteady.heedAll after).1
  have htracedAfter := htraced.heedAll hsteady since
  have hqueue := queue_suffix hsteady since
  rw [hsince] at htracedAfter hqueue
  exact hownAfter.touchesOnly hsteadyAfter htracedAfter hqueue request

end Site

/-- A guard has a lamp for two units of time, and a whistle waits for it. -/
def firstWatch : List Request :=
  let whistle : Event := ⟨[.addFact .agent "whistle" (.ofInt 1) none], some (.name "guard")⟩
  let lamp : Event :=
    ⟨[.addFact .agent "lamp" (.ofInt 1) (some (.ofRank false 2))], some (.name "guard")⟩
  [.operation (.register (some (.name "guard")) none), .operation (.triggerImmediate lamp),
    .operation (.trigger whistle)]

/-- The guard goes and comes back to another store, in which a lamp is lit for good. -/
def secondWatch (between : List Request) : List Request :=
  .operation (.unregister (some (.name "guard"))) :: between ++
    [.operation (.register (some (.name "guard")) (some ⟨1⟩)),
      .put ⟨1⟩ (.ofList [("lamp", .ofInt 1)])]

/-- At the tick the whistle that waited comes into the store that the guard came back to. The lamp
there stays lit, as the one with two units of time was in the first store. -/
theorem secondWatch_touchesOnly :
    let begun := Site.start ⟨0⟩ (.ofPicks []) ⟨[∅, ∅]⟩
    let left := begun.heedAll (firstWatch ++ [.operation (.unregister (some (.name "guard")))])
    let site := begun.heedAll (firstWatch ++ secondWatch [])
    let tick : Request := .operation (.tick (.ofRank false 2))
    left.waitingAfter ((secondWatch []).drop 1) = left.keeper.queue ∧
      (∃ taken, site.TouchesOnly (.name "guard") ⟨1⟩ (left.writtenAll ((secondWatch []).drop 1))
        (left.waitingAfter ((secondWatch []).drop 1)) tick taken) ∧
      ((site.heed tick).bank.get ⟨1⟩).keys = ["lamp", "whistle"] := by
  refine ⟨by decide +kernel, ?_, by decide +kernel⟩
  exact Site.registered_again ⟨0⟩ (.ofPicks []) ⟨[∅, ∅]⟩ firstWatch []
    [.put ⟨1⟩ (.ofList [("lamp", .ofInt 1)])] (.name "guard") (some ⟨1⟩) (by rfl) (by rfl)
    (by decide +kernel) (by decide) _

/-- What waited for the guard reaches the store that it came back to, which was empty, unless a tick
came meanwhile. -/
theorem secondWatch_whistle :
    let begun := Site.start ⟨0⟩ (.ofPicks []) ⟨[∅, ∅]⟩
    let returned (between : List Request) :=
      begun.heedAll (firstWatch ++ (secondWatch between).dropLast)
    let whistles (between : List Request) : Bool :=
      (((returned between).heed (.operation (.tick (.ofRank false 1)))).bank.get ⟨1⟩).contains
        "whistle"
    (returned []).IsOwn (.name "guard") ⟨1⟩ ∧ ((returned []).bank.get ⟨1⟩).keys = [] ∧
      whistles [] = true ∧ whistles [.operation (.tick .zero)] = false := by
  decide +kernel

end FactRules
