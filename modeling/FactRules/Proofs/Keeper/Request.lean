import FactRules.Proofs.Keeper.LatestWrite
import FactRules.Proofs.Keeper.Ledger
import FactRules.Proofs.Reading.Success

/-!
# Requests of a host

A `Request` is anything that a host may do to a site: an operation with any times, values and times
to live, or putting other facts into a store itself. Stores may be shared in any way.

`Site.reliable_heedAll` says that no request brings a site into a state in which a tick or an event
fails: what is to be taken back always belongs to someone who has a store, and each fact is to be
taken back at most once. Requests that are refused are known beforehand (`Keeper.refusal?`) and
change nothing. The invariant is `Site.Steady`; `Steady.serve` is its step.
-/

namespace FactRules

/-- A time to live that is a number gives a due time that is one, from a finite time on. -/
theorem Action.IsTimed.isDueFrom {action : Action} (h : action.IsTimed) {now : Double}
    (hnow : now.isFinite = true) : action.IsDueFrom now := by
  cases action with
  | randomText choices => trivial
  | addFact scope key value ttl =>
    cases ttl with
    | none => trivial
    | some seconds => exact Binary.isNan_add hnow h

/-! ## Queries of a keeper -/

/-- A query of a keeper with one-time facts. -/
def Keeper.ask (keeper : Keeper) (concept : Concept) (agent : Option AgentId)
    (extra : List (String × Double)) : Except KeeperError Query :=
  (keeper.query concept agent).map fun query =>
    extra.foldl (fun query fact => query.addFact fact.1 fact.2) query

/-- One-time facts are those of a store of their own. -/
theorem Query.foldl_addFact (query : Query) (extra : List (String × Double)) :
    extra.foldl (fun query fact => query.addFact fact.1 fact.2) query =
      { query with
        extra := extra.foldl (fun store fact => store.add fact.1 fact.2) query.extra } := by
  induction extra generalizing query with
  | nil => rfl
  | cons fact rest ih => exact ih _

/-- A query for nobody looks into the shared store and the one-time facts. -/
theorem Keeper.ask_none (keeper : Keeper) (concept : Concept) (extra : List (String × Double)) :
    keeper.ask concept none extra = .ok ⟨concept, [keeper.shared], .ofList extra⟩ :=
  congrArg Except.ok (Query.foldl_addFact ..)

/-- A query for an agent looks into the shared store, then the agent's, then the one-time facts. -/
theorem Keeper.ask_some (keeper : Keeper) (concept : Concept) (agent : AgentId)
    (extra : List (String × Double)) :
    keeper.ask concept (some agent) extra =
      match keeper.ownedStore? (some agent) with
      | some store => .ok ⟨concept, [keeper.shared, store], .ofList extra⟩
      | none => .error (.unknownAgent (some agent)) := by
  rw [Keeper.ask, Keeper.query, Keeper.storeOf, Keeper.ownedStore?]
  cases keeper.agents.get? (some agent) with
  | none => rfl
  | some store => exact congrArg Except.ok (Query.foldl_addFact ..)

namespace Site

variable {site : Site}

/-- The site after a query was answered for an agent: the dice are those of the answer, and the
actions for now of the response wait for the next tick, if there is one. -/
def answered (site : Site) (agent : Option AgentId) (answer : Answer) : Site where
  keeper := { site.keeper with
    queue := site.keeper.queue ++ answer.response.toList.map fun response => ⟨response.now, agent⟩
    dice := answer.dice }
  bank := site.bank

/-- What cannot be asked is not responded to. -/
theorem respond_error {rules : RuleSet} {concept : Concept} {agent : Option AgentId}
    {extra : List (String × Double)} {error : KeeperError}
    (hask : site.keeper.ask concept agent extra = .error error) :
    site.respond rules concept agent extra = .error error := by
  rw [Keeper.ask] at hask
  rw [respond]
  cases hquery : site.keeper.query concept agent with
  | error other =>
    rw [hquery] at hask
    cases hask
    rfl
  | ok query =>
    rw [hquery] at hask
    cases hask

/-- Responding is running the query that is asked and queueing the response. -/
theorem respond_eq_answered {concept : Concept} {agent : Option AgentId}
    {extra : List (String × Double)} {query : Query} (rules : RuleSet)
    (hask : site.keeper.ask concept agent extra = .ok query) :
    let answer := query.run rules site.bank site.keeper.dice
    ∃ notices, site.respond rules concept agent extra =
      .ok (site.answered agent answer, ⟨answer.response, answer.asked, notices⟩) := by
  rw [Keeper.ask] at hask
  rw [respond]
  cases hquery : site.keeper.query concept agent with
  | error other =>
    rw [hquery] at hask
    cases hask
  | ok plain =>
    rw [hquery] at hask
    cases hask
    simp only [bind, Except.bind, answered]
    generalize Query.run _ rules site.bank site.keeper.dice = answer
    obtain ⟨response, asked, dice, notices⟩ := answer
    cases response with
    | none => exact ⟨notices, by simp [pure, Except.pure]⟩
    | some response => exact ⟨_, rfl⟩

/-- The response of a reply is that of the answer. -/
theorem respond_ok {concept : Concept} {agent : Option AgentId} {extra : List (String × Double)}
    {query : Query} (rules : RuleSet) (hask : site.keeper.ask concept agent extra = .ok query) :
    ∃ reply, site.respond rules concept agent extra =
        .ok (site.answered agent (query.run rules site.bank site.keeper.dice), reply) ∧
      reply.response = (query.run rules site.bank site.keeper.dice).response := by
  obtain ⟨notices, hrespond⟩ := respond_eq_answered rules hask
  exact ⟨_, hrespond, rfl⟩

end Site

/-! ## Who has a store -/

/-- Whoever has a store keeps one when someone is registered. -/
theorem Keeper.isSome_ownedStore?_insert {keeper : Keeper} {owner : Option AgentId}
    (h : (keeper.ownedStore? owner).isSome) (agent : Option AgentId) (store : StoreRef) :
    (Keeper.ownedStore? { keeper with agents := keeper.agents.insert agent store }
      owner).isSome := by
  rw [keeper.ownedStore?_insert]
  split
  · rfl
  · exact h

/-- Whoever has a store keeps it when someone else is unregistered. -/
theorem Keeper.ownedStore?_erase_of_ne (keeper : Keeper) {owner agent : Option AgentId}
    (hne : owner ≠ agent) (retractions : Schedule Retraction) :
    Keeper.ownedStore? { keeper with agents := keeper.agents.erase agent, retractions } owner =
      keeper.ownedStore? owner := by
  rw [keeper.ownedStore?_erase, if_neg fun h => hne h.1]

/-! ## Requests -/

/-- What a host may do to a site. -/
inductive Request where
  | operation (operation : Operation)
  | put (store : StoreRef) (facts : FactStore)

namespace Keeper

/-- The refusal of those who are registered. -/
def taken? (keeper : Keeper) (agent : Option AgentId) : Option KeeperError :=
  if keeper.agents.contains agent then some (.alreadyRegistered agent) else none

/-- The refusal of those who are not registered. -/
def missing? (keeper : Keeper) (agent : Option AgentId) : Option KeeperError :=
  if keeper.agents.contains agent then none else some (.unknownAgent agent)

/-- Why a request is refused, if it is. It depends on nothing but who is registered. -/
def refusal? (keeper : Keeper) : Request → Option KeeperError
  | .operation (.register agent _) => keeper.taken? agent
  | .operation (.unregister agent) => keeper.missing? agent
  | .operation (.respond _ _ agent _) => agent.bind fun agent => keeper.missing? (some agent)
  | .operation (.trigger _) | .operation (.triggerImmediate _) | .operation (.tick _) => none
  | .put .. => none

/-- Only whoever is registered is taken, and the error names them. -/
theorem taken?_eq_some_iff {keeper : Keeper} {agent : Option AgentId} {error : KeeperError} :
    keeper.taken? agent = some error ↔
      keeper.agents.contains agent ∧ error = .alreadyRegistered agent := by
  rw [taken?]
  split
  · next hcontains => simp [hcontains, eq_comm]
  · next hnew => simp [hnew]

/-- Whoever is not refused for being registered is new. -/
theorem get?_of_taken?_eq_none {keeper : Keeper} {agent : Option AgentId}
    (h : keeper.taken? agent = none) : keeper.agents.get? agent = none := by
  rw [taken?] at h
  split at h
  · cases h
  · next hnew => exact Option.not_isSome_iff_eq_none.1 hnew

/-- Only whoever is not registered is missing, and the error names them. -/
theorem missing?_eq_some_iff {keeper : Keeper} {agent : Option AgentId} {error : KeeperError} :
    keeper.missing? agent = some error ↔
      keeper.agents.get? agent = none ∧ error = .unknownAgent agent := by
  rw [missing?, OrderedMap.contains]
  cases keeper.agents.get? agent <;> simp [eq_comm]

/-- Whoever is not missing has a store. -/
theorem get?_of_missing?_eq_none {keeper : Keeper} {agent : Option AgentId}
    (h : keeper.missing? agent = none) : ∃ store, keeper.agents.get? agent = some store := by
  rw [missing?] at h
  split at h
  · next hregistered => exact Option.isSome_iff_exists.1 hregistered
  · cases h

/-- Only agents that are not registered cannot be asked for. -/
theorem ask_eq_error_iff {keeper : Keeper} {concept : Concept} {agent : Option AgentId}
    {extra : List (String × Double)} {error : KeeperError} :
    keeper.ask concept agent extra = .error error ↔
      agent.bind (fun agent => keeper.missing? (some agent)) = some error := by
  cases agent with
  | none => simp [ask_none]
  | some agent =>
    rw [ask_some, Option.bind_some, missing?_eq_some_iff, ownedStore?]
    cases keeper.agents.get? (some agent) <;> simp [eq_comm]

end Keeper

namespace Site

/-- The site after a request. -/
def serve (site : Site) : Request → Except KeeperError Site
  | .operation operation => site.after operation
  | .put store facts => .ok ⟨site.keeper, site.bank.put store facts⟩

/-- The site after a request that may be refused: a refused request yields no site, so it changes
nothing. -/
def heed (site : Site) (request : Request) : Site :=
  match site.serve request with
  | .ok after => after
  | .error _ => site

/-- The site after requests, one after the other. -/
def heedAll (site : Site) (requests : List Request) : Site := requests.foldl heed site

/-- Requests before others are heeded first. -/
theorem heedAll_append (site : Site) (before after : List Request) :
    site.heedAll (before ++ after) = (site.heedAll before).heedAll after :=
  List.foldl_append ..

/-- A request that succeeds leads to the site that it gives. -/
theorem heed_ok {site after : Site} {request : Request} (h : site.serve request = .ok after) :
    site.heed request = after := by
  rw [heed, h]

/-- A refused request leaves the site. -/
theorem heed_error {site : Site} {request : Request} {error : KeeperError}
    (h : site.serve request = .error error) : site.heed request = site := by
  rw [heed, h]

variable {site : Site}

/-- A new store is registered unless the one it is for is registered already. -/
theorem register_error {agent : Option AgentId} {error : KeeperError}
    (h : site.keeper.taken? agent = some error) (store : Option StoreRef) :
    site.register agent store = .error error := by
  obtain ⟨hcontains, rfl⟩ := Keeper.taken?_eq_some_iff.1 h
  rw [Site.register.eq_def, if_pos hcontains]

/-- Nobody is unregistered who is not registered. -/
theorem unregister_error {agent : Option AgentId} {error : KeeperError}
    (h : site.keeper.missing? agent = some error) :
    site.keeper.unregister agent = .error error := by
  obtain ⟨hnew, rfl⟩ := Keeper.missing?_eq_some_iff.1 h
  rw [Keeper.unregister, Keeper.storeOf, hnew]
  rfl

/-- A request that is refused fails with the refusal. -/
theorem serve_error {request : Request} {error : KeeperError}
    (h : site.keeper.refusal? request = some error) : site.serve request = .error error := by
  cases request with
  | put store facts => cases h
  | operation operation =>
    cases operation with
    | register agent store => rw [serve, after, register_error h]; rfl
    | unregister agent => rw [serve, after, unregister_error h]; rfl
    | respond rules concept agent extra =>
      rw [serve, after, respond_error (Keeper.ask_eq_error_iff.2 h)]
      rfl
    | trigger event => cases h
    | triggerImmediate event => cases h
    | tick now => cases h

namespace Steady

/-- The time, the queue, the dice and the facts play no part in what is to be taken back. -/
theorem congr (h : site.Steady) (now : Double) (queue : List Event) (dice : Dice) (bank : Bank) :
    Steady ⟨{ site.keeper with now, queue, dice }, bank⟩ := ⟨h.sound, h.owned⟩

/-- Registering whoever has no store yet succeeds. -/
theorem register (h : site.Steady) {agent : Option AgentId}
    (hnew : site.keeper.agents.get? agent = none) (store : Option StoreRef) :
    ∃ after ref, site.register agent store = .ok (after, ref) ∧ after.Steady ∧
      after.keeper.shared = site.keeper.shared := by
  obtain ⟨bank, hregister, _⟩ := register_ok hnew store
  refine ⟨_, _, hregister, ⟨h.sound, fun retraction hsome => ?_⟩, rfl⟩
  exact Keeper.isSome_ownedStore?_insert (h.owned retraction hsome) ..

/-- Unregistering whoever has a store succeeds, and nothing is left to be taken back from it. -/
theorem unregister (h : site.Steady) {agent : Option AgentId} {store : StoreRef}
    (hstore : site.keeper.agents.get? agent = some store) :
    ∃ keeper, site.keeper.unregister agent = .ok keeper ∧ Steady ⟨keeper, site.bank⟩ ∧
      keeper.shared = site.keeper.shared := by
  obtain ⟨left, hunregister, hsound, _, hdue⟩ := unregister_ok h.sound hstore
  refine ⟨_, hunregister, ⟨hsound, fun retraction hsome => ?_⟩, rfl⟩
  rw [hdue] at hsome
  split at hsome
  · cases hsome
  · next hne =>
    rw [Keeper.ownedStore?_erase_of_ne _ hne]
    exact h.owned retraction hsome

/-- A request that is not refused succeeds. -/
theorem serve (h : site.Steady) {request : Request}
    (haccepted : site.keeper.refusal? request = none) :
    ∃ after, site.serve request = .ok after ∧ after.Steady ∧
      after.keeper.shared = site.keeper.shared := by
  cases request with
  | put store facts => exact ⟨_, rfl, ⟨h.sound, h.owned⟩, rfl⟩
  | operation operation =>
    cases operation with
    | register agent store =>
      obtain ⟨after, ref, hregister, hafter⟩ :=
        h.register (Keeper.get?_of_taken?_eq_none haccepted) store
      exact ⟨after, map_eq_ok.2 ⟨_, hregister, rfl⟩, hafter⟩
    | unregister agent =>
      obtain ⟨store, hstore⟩ := Keeper.get?_of_missing?_eq_none haccepted
      obtain ⟨keeper, hunregister, hafter⟩ := h.unregister hstore
      exact ⟨_, map_eq_ok.2 ⟨_, hunregister, rfl⟩, hafter⟩
    | trigger event => exact ⟨_, rfl, ⟨h.sound, h.owned⟩, rfl⟩
    | triggerImmediate event =>
      obtain ⟨after, notices, happly, hleads⟩ := h.applyEvent event
      exact ⟨after, map_eq_ok.2 ⟨_, happly, rfl⟩, hleads.steady, by rw [hleads.keeper]⟩
    | respond rules concept agent extra =>
      cases hask : site.keeper.ask concept agent extra with
      | error error =>
        have hrefused := Keeper.ask_eq_error_iff.1 hask
        rw [Keeper.refusal?, hrefused] at haccepted
        cases haccepted
      | ok query =>
        obtain ⟨reply, hrespond, _⟩ := respond_ok rules hask
        exact ⟨_, map_eq_ok.2 ⟨_, hrespond, rfl⟩, ⟨h.sound, h.owned⟩, rfl⟩
    | tick now =>
      obtain ⟨after, notices, _, htick, hkeeper, hafter, _⟩ := h.tick now
      exact ⟨after, map_eq_ok.2 ⟨_, htick, rfl⟩, hafter, by rw [hkeeper]⟩

/-- Whether a request is refused or not, the site stays steady and shares the same store. -/
theorem heed (h : site.Steady) (request : Request) :
    (site.heed request).Steady ∧ (site.heed request).keeper.shared = site.keeper.shared := by
  cases hrefusal : site.keeper.refusal? request with
  | some error =>
    rw [heed_error (serve_error hrefusal)]
    exact ⟨h, rfl⟩
  | none =>
    obtain ⟨after, hserve, hafter⟩ := h.serve hrefusal
    rw [heed_ok hserve]
    exact hafter

/-- Whatever is requested, a site stays steady and shares the same store. -/
theorem heedAll (h : site.Steady) (requests : List Request) :
    (site.heedAll requests).Steady ∧
      (site.heedAll requests).keeper.shared = site.keeper.shared := by
  induction requests generalizing site with
  | nil => exact ⟨h, rfl⟩
  | cons request rest ih =>
    obtain ⟨hsteady, hshared⟩ := h.heed request
    obtain ⟨hall, hkept⟩ := ih hsteady
    exact ⟨hall, hkept.trans hshared⟩

end Steady

/-- What a host can rely on. -/
structure Reliable (site : Site) : Prop where
  /-- What is pending belongs to the shared store or to an agent that is registered. -/
  owned : ∀ entry ∈ site.keeper.retractions.pending,
    (site.keeper.ownedStore? entry.task.owner).isSome
  /-- A fact is pending at most once. -/
  once : (site.keeper.retractions.pending.map (·.task)).Nodup
  /-- What is pending is what the schedule lists. -/
  listed : (site.keeper.retractions.pending.map (·.task)).Perm site.keeper.retractions.tasks
  /-- Whatever is pending can be taken back. -/
  retracts : ∀ retraction ∈ site.keeper.retractions.tasks,
    ∃ result, site.retract retraction = .ok result
  /-- A fact can be scheduled after it was called off. -/
  pushes : ∀ retraction time,
    ∃ pushed, (site.keeper.retractions.cancel retraction).push time retraction = .ok pushed
  /-- Events are applied, and so are the queued ones and what is due, after which none waits. -/
  applies : ∀ event, ∃ result, site.applyEvent event = .ok result
  ticks : ∀ now, ∃ after notices, site.tick now = .ok (after, notices) ∧ after.keeper.queue = []
  /-- A query is refused for agents that are not registered, and for no others. -/
  asks : ∀ concept agent extra error, site.keeper.ask concept agent extra = .error error ↔
    ∃ id, agent = some id ∧ site.keeper.agents.get? agent = none ∧ error = .unknownAgent agent
  /-- It is known beforehand which requests are refused. -/
  refuses : ∀ request error, site.serve request = .error error ↔
    site.keeper.refusal? request = some error
  /-- What is refused changes nothing. -/
  unchanged : ∀ request error, site.keeper.refusal? request = some error → site.heed request = site

/-- A steady site can be relied on. -/
theorem Steady.reliable (h : site.Steady) : site.Reliable where
  owned entry hentry := by
    refine h.owned entry.task (h.sound.mem_tasks_iff.1 ?_)
    exact h.sound.pending.2.mem_iff.1 (List.mem_map_of_mem hentry)
  once := h.sound.pending.1
  listed := h.sound.pending.2
  retracts retraction hmem := by
    obtain ⟨store, hstore⟩ :=
      Option.isSome_iff_exists.1 (h.owned retraction (h.sound.mem_tasks_iff.1 hmem))
    exact ⟨_, retract_ok hstore⟩
  pushes retraction time := by
    obtain ⟨hcancelled, hdue⟩ := h.sound.cancel retraction
    obtain ⟨pushed, hpush, _⟩ := hcancelled.push time ((hdue _).trans (if_pos rfl))
    exact ⟨pushed, hpush⟩
  applies event := by
    obtain ⟨after, notices, happly, _⟩ := h.applyEvent event
    exact ⟨_, happly⟩
  ticks now := by
    obtain ⟨after, notices, _, htick, hkeeper, _⟩ := h.tick now
    exact ⟨after, notices, htick, by rw [hkeeper]⟩
  asks concept agent extra error := by
    rw [Keeper.ask_eq_error_iff]
    cases agent with
    | none => simp
    | some id => simp [Keeper.missing?_eq_some_iff]
  refuses request error := by
    constructor
    · intro hserve
      cases hrefusal : site.keeper.refusal? request with
      | some other =>
        rw [serve_error hrefusal] at hserve
        cases hserve
        rfl
      | none =>
        obtain ⟨after, hafter, _⟩ := h.serve hrefusal
        rw [hafter] at hserve
        cases hserve
    · exact serve_error
  unchanged request error hrefusal := heed_error (serve_error hrefusal)

/-- Whatever is requested of a keeper that begins without agents, it can be relied on. -/
theorem reliable_heedAll (shared : StoreRef) (dice : Dice) (bank : Bank)
    (requests : List Request) : ((start shared dice bank).heedAll requests).Reliable :=
  ((Steady.ofShared shared dice bank).heedAll requests).1.reliable

end Site

end FactRules
