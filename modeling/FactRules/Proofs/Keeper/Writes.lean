import FactRules.Proofs.Keeper.Request

/-!
# What requests write

A request applies events (`Site.applied`), and these write facts (`Site.written`). A host may put
facts into a store itself, and a tick takes back what is due. This is all that requests do to the
stores: `Steady.yields` says so of any site that is steady, whatever its times are and whoever
shares stores.

The writes of a run are its log (`Site.writtenAll`). What is pending for an owner was scheduled by
its latest write to the key (`Site.Traced`), on a log that begins when nothing is pending for the
owner.
-/

namespace FactRules

/-- A fact that was written: through which owner, where, and when it is to be taken back, if it is
to be. -/
structure Written where
  owner : Option AgentId
  store : StoreRef
  key : String
  value : Double
  due : Option Double
deriving DecidableEq

namespace Written

/-- What is scheduled when the fact is to be taken back. -/
def retraction (write : Written) : Retraction := ⟨write.key, write.owner⟩

/-- Whether a fact was written to a key of a store. -/
def isTo (store : StoreRef) (key : String) (write : Written) : Bool :=
  decide (write.store = store ∧ write.key = key)

/-- The latest of some writes that passes a test. -/
def latest? (p : Written → Bool) (log : List Written) : Option Written := log.reverse.find? p

variable {p q : Written → Bool} {log : List Written}

/-- The latest of more writes is among the later ones, if one of them is meant. -/
theorem latest?_append (p : Written → Bool) (log more : List Written) :
    latest? p (log ++ more) = (latest? p more).or (latest? p log) := by
  rw [latest?, List.reverse_append, List.find?_append]
  rfl

/-- The latest write is one that is logged and meant. -/
theorem mem_of_latest? {write : Written} (h : latest? p log = some write) :
    write ∈ log ∧ p write = true :=
  ⟨List.mem_reverse.1 (List.mem_of_find?_eq_some h), List.find?_some h⟩

/-- Where one write is meant, there is a latest. -/
theorem exists_latest? {write : Written} (hmem : write ∈ log) (hp : p write = true) :
    ∃ last, latest? p log = some last :=
  Option.isSome_iff_exists.1 (List.find?_isSome.2 ⟨write, List.mem_reverse.2 hmem, hp⟩)

/-- Of two latest writes each of which passes the other's test, neither is earlier. -/
theorem latest?_unique {first second : Written} (hfirst : latest? p log = some first)
    (hsecond : latest? q log = some second) (hq : q first = true) (hp : p second = true) :
    first = second := by
  rw [latest?] at hfirst hsecond
  generalize log.reverse = writes at hfirst hsecond
  induction writes with
  | nil => cases hfirst
  | cons write rest ih =>
    rw [List.find?_cons] at hfirst hsecond
    cases hpw : p write with
    | true =>
      rw [hpw] at hfirst
      cases hfirst
      rw [hq] at hsecond
      exact Option.some.inj hsecond
    | false =>
      rw [hpw] at hfirst
      cases hqw : q write with
      | true =>
        rw [hqw] at hsecond
        cases hsecond
        rw [hp] at hpw
        cases hpw
      | false =>
        rw [hqw] at hsecond
        exact ih hfirst hsecond

end Written

/-! ## Writes of events -/

namespace Keeper

/-- What an action for an agent writes, if it writes at all. -/
def written? (keeper : Keeper) (agent : Option AgentId) : Action → Option Written
  | .randomText _ => none
  | .addFact scope key value ttl =>
    (scope.owner? agent).bind fun owner =>
      (keeper.ownedStore? owner).map fun store =>
        ⟨owner, store, key, value, ttl.map keeper.now.add⟩

/-- What the actions of an event write. -/
def writes (keeper : Keeper) (event : Event) : List Written :=
  event.actions.filterMap (keeper.written? event.agent)

/-- A fact is written for everyone or for the agent of the event, to the store that it has. -/
theorem of_mem_writes {keeper : Keeper} {event : Event} {write : Written}
    (h : write ∈ keeper.writes event) :
    keeper.ownedStore? write.owner = some write.store ∧
      (write.owner = none ∨ write.owner = event.agent) := by
  obtain ⟨action, _, hwrite⟩ := List.mem_filterMap.1 h
  cases action with
  | randomText choices => cases hwrite
  | addFact scope key value ttl =>
    obtain ⟨owner, howner, hwrite⟩ := Option.bind_eq_some_iff.1 hwrite
    obtain ⟨store, hstore, rfl⟩ := Option.map_eq_some_iff.1 hwrite
    refine ⟨hstore, ?_⟩
    cases scope with
    | everyone =>
      cases howner
      exact .inl rfl
    | agent =>
      obtain ⟨agent, hagent, rfl⟩ := Option.map_eq_some_iff.1 howner
      exact .inr hagent.symm

end Keeper

namespace Ledger

/-- The ledger after a write. -/
def enter (ledger : Ledger) (write : Written) : Ledger :=
  ledger.write write.owner write.store write.key write.value write.due

/-- An action changes the ledger by the write that it asks for, if it asks for one and its owner has
a store. -/
theorem act_eq_enter (keeper : Keeper) (agent : Option AgentId) (ledger : Ledger)
    (action : Action) :
    ledger.act keeper agent action =
      match keeper.written? agent action with
      | some write => ledger.enter write
      | none => ledger := by
  cases action with
  | randomText choices => rfl
  | addFact scope key value ttl =>
    rw [act, Keeper.written?]
    cases scope.owner? agent with
    | none => rfl
    | some owner =>
      simp only [Option.bind_some]
      cases keeper.ownedStore? owner with
      | none => rfl
      | some store => rfl

/-- Applying events is entering their writes. -/
theorem foldl_apply_eq_enter (keeper : Keeper) (ledger : Ledger) (events : List Event) :
    events.foldl (apply keeper) ledger = (events.flatMap keeper.writes).foldl enter ledger := by
  rw [List.foldl_flatMap]
  refine congrArg (fun step => events.foldl step ledger)
    (funext fun ledger => funext fun event => ?_)
  rw [apply, Keeper.writes, List.foldl_filterMap]
  refine congrArg (fun step => event.actions.foldl step ledger)
    (funext fun ledger => funext fun action => ?_)
  rw [act_eq_enter]
  cases keeper.written? event.agent action with
  | none => rfl
  | some write => rfl

/-- A store gets the facts that are written to it. -/
theorem facts_foldl_enter (ledger : Ledger) (writes : List Written) (store : StoreRef) :
    (writes.foldl enter ledger).facts store =
      (writes.filter (·.store = store)).foldl (fun facts write => facts.add write.key write.value)
        (ledger.facts store) := by
  induction writes generalizing ledger with
  | nil => rfl
  | cons write rest ih =>
    rw [List.foldl_cons, ih, enter, Ledger.write, List.filter_cons]
    by_cases hstore : write.store = store
    · subst hstore
      simp
    · simp [hstore]

/-- Taking nothing back leaves the ledger. -/
theorem takeBack_nil (keeper : Keeper) (ledger : Ledger) : ledger.takeBack keeper [] = ledger :=
  congrArg₂ mk (funext fun _ => FactStore.removeWhere_false _) (funext fun _ => if_neg nofun)

/-- The latest write of a fact decides when it is taken back. -/
theorem due_foldl_enter (ledger : Ledger) (writes : List Written) (retraction : Retraction) :
    (writes.foldl enter ledger).due retraction =
      match Written.latest? (·.retraction = retraction) writes with
      | some write => write.due
      | none => ledger.due retraction := by
  induction writes generalizing ledger with
  | nil => rfl
  | cons write rest ih =>
    rw [List.foldl_cons, ih, ← List.singleton_append, Written.latest?_append]
    cases Written.latest? (·.retraction = retraction) rest with
    | some last => rfl
    | none =>
      by_cases heq : write.retraction = retraction
      · subst heq
        simp [Written.latest?, enter, Ledger.write, Written.retraction]
      · have hne : ¬ (⟨write.key, write.owner⟩ : Retraction) = retraction := heq
        simp [Written.latest?, heq, enter, Ledger.write, hne]

end Ledger

/-! ## What requests do to the stores -/

namespace Site

/-- The events that a request applies. -/
def applied (site : Site) : Request → List Event
  | .operation (.triggerImmediate event) => [event]
  | .operation (.tick _) => site.keeper.queue
  | _ => []

/-- The keeper that applies the events of a request: at a tick, time was moved on. -/
def moved (site : Site) : Request → Keeper
  | .operation (.tick now) => { site.keeper with now }
  | _ => site.keeper

/-- What a request writes. -/
def written (site : Site) (request : Request) : List Written :=
  (site.applied request).flatMap (site.moved request).writes

/-- What requests write that are made one after the other. -/
def writtenAll : Site → List Request → List Written
  | _, [] => []
  | site, request :: rest => site.written request ++ (site.heed request).writtenAll rest

/-- The stores as a host leaves them that puts facts into them itself. -/
def handed (site : Site) : Request → Bank
  | .put store facts => site.bank.put store facts
  | _ => site.bank

/-- The ledger after what a request writes. -/
def entered (site : Site) (request : Request) : Ledger :=
  (site.written request).foldl Ledger.enter
    ⟨(site.handed request).get, site.keeper.retractions.dueTime?⟩

/-- The events that go on waiting when a request is made. -/
def kept (site : Site) : Request → List Event
  | .operation (.tick _) => []
  | _ => site.keeper.queue

/-- The events that a request queues. -/
def queued (site : Site) : Request → List Event
  | .operation (.trigger event) => [event]
  | .operation (.respond rules concept agent extra) =>
    match site.respond rules concept agent extra with
    | .ok (_, ⟨some response, _, _⟩) => [⟨response.now, agent⟩]
    | .ok (_, ⟨none, _, _⟩) | .error _ => []
  | _ => []

/-- What comes of a request. The stores hold what was written but for the facts that are taken back,
and these are due. Nothing is pending that was not pending before or scheduled by a write, for
owners that keep their stores. Whoever is registered gets a store, and nobody else does. -/
structure Yields (site : Site) (request : Request) (due : List Retraction) (after : Site) :
    Prop where
  facts : ∀ store,
    after.bank.get store = ((site.entered request).takeBack site.keeper due).facts store
  isDue : ∀ retraction ∈ due, ∃ now, request = .operation (.tick now) ∧
    ∃ time ∈ (site.entered request).due retraction, time.le now = true
  pending : ∀ retraction, ∀ time ∈ after.keeper.retractions.dueTime? retraction,
    (site.entered request).due retraction = some time ∧
      after.keeper.ownedStore? retraction.owner = site.keeper.ownedStore? retraction.owner
  owned : ∀ {owner store}, after.keeper.ownedStore? owner = some store →
    site.keeper.ownedStore? owner = some store ∨
      ∃ agent given, request = .operation (.register (some agent) given) ∧ owner = some agent ∧
        store = given.getD site.bank.fresh
  queue : after.keeper.queue = site.kept request ++ site.queued request
  length : site.bank.stores.length ≤ after.bank.stores.length

variable {site : Site}

/-- A request whose ledger is known and that changes no owner's store. -/
theorem yields_of_ledger {request : Request} {due : List Retraction} {after : Site}
    (hledger : after.ledger = (site.entered request).takeBack site.keeper due)
    (hdue : ∀ retraction ∈ due, ∃ now, request = .operation (.tick now) ∧
      ∃ time ∈ (site.entered request).due retraction, time.le now = true)
    (howned : after.keeper.ownedStore? = site.keeper.ownedStore?)
    (hqueue : after.keeper.queue = site.kept request ++ site.queued request)
    (hlength : site.bank.stores.length ≤ after.bank.stores.length) :
    site.Yields request due after where
  facts store := congrFun (congrArg Ledger.facts hledger) store
  isDue := hdue
  pending retraction time htime := by
    have hkept : ((site.entered request).takeBack site.keeper due).due retraction = some time :=
      (congrFun (congrArg Ledger.due hledger) retraction).symm.trans htime
    simp only [Ledger.takeBack] at hkept
    split at hkept
    · cases hkept
    · exact ⟨hkept, congrFun howned _⟩
  owned howner := .inl (howned ▸ howner)
  queue := hqueue
  length := hlength

/-- A request that takes nothing back. -/
theorem yields_entered {request : Request} {after : Site}
    (hledger : after.ledger = site.entered request)
    (howned : after.keeper.ownedStore? = site.keeper.ownedStore?)
    (hqueue : after.keeper.queue = site.kept request ++ site.queued request)
    (hlength : site.bank.stores.length ≤ after.bank.stores.length) :
    site.Yields request [] after :=
  yields_of_ledger (hledger.trans (Ledger.takeBack_nil ..).symm) (fun _ hmem => by cases hmem)
    howned hqueue hlength

namespace Steady

/-- Whoever is registered anew takes no store from those for whom something is pending. -/
theorem ownedStore?_insert (h : site.Steady) {agent : Option AgentId}
    (hnew : site.keeper.agents.get? agent = none) (store : StoreRef) {retraction : Retraction}
    {time : Double} (htime : time ∈ site.keeper.retractions.dueTime? retraction) :
    Keeper.ownedStore? { site.keeper with agents := site.keeper.agents.insert agent store }
      retraction.owner = site.keeper.ownedStore? retraction.owner := by
  rw [Keeper.ownedStore?_insert, if_neg]
  rintro ⟨howner, hagent⟩
  obtain ⟨id, rfl⟩ := Option.isSome_iff_exists.1 hagent
  have hsome := h.owned retraction (Option.isSome_iff_exists.2 ⟨time, htime⟩)
  rw [howner, Keeper.ownedStore?, hnew] at hsome
  cases hsome

/-- Registering whoever is new writes and takes back nothing. -/
theorem yields_register (h : site.Steady) {agent : Option AgentId}
    (hnew : site.keeper.agents.get? agent = none) (store : Option StoreRef) :
    site.Yields (.operation (.register agent store)) []
      (site.heed (.operation (.register agent store))) := by
  obtain ⟨bank, hregister, hbank, hlength, _⟩ := register_ok hnew store
  have hserve : site.serve (.operation (.register agent store)) = .ok _ :=
    map_eq_ok.2 ⟨_, hregister, rfl⟩
  have hentered : site.entered (.operation (.register agent store)) = site.ledger := rfl
  rw [heed_ok hserve]
  refine ⟨?facts, (fun _ hmem => by cases hmem), ?pending, ?owned, (List.append_nil _).symm,
    hlength⟩
  case facts =>
    intro r
    rw [hentered, Ledger.takeBack_nil]
    exact hbank r
  case pending =>
    intro retraction time htime
    rw [hentered]
    exact ⟨htime, h.ownedStore?_insert hnew _ htime⟩
  case owned =>
    intro owner r howner
    rw [Keeper.ownedStore?_insert] at howner
    split at howner
    · next heq =>
      obtain ⟨rfl, hagent⟩ := heq
      obtain ⟨id, rfl⟩ := Option.isSome_iff_exists.1 hagent
      exact .inr ⟨id, store, rfl, rfl, (Option.some.inj howner).symm⟩
    · exact .inl howner

/-- Unregistering whoever has a store writes and takes back nothing. -/
theorem yields_unregister (h : site.Steady) {agent : Option AgentId} {store : StoreRef}
    (hstore : site.keeper.agents.get? agent = some store) :
    site.Yields (.operation (.unregister agent)) []
      (site.heed (.operation (.unregister agent))) := by
  obtain ⟨left, hunregister, _, _, hdue⟩ := unregister_ok h.sound hstore
  have hserve : site.serve (.operation (.unregister agent)) = .ok _ :=
    map_eq_ok.2 ⟨_, hunregister, rfl⟩
  have hentered : site.entered (.operation (.unregister agent)) = site.ledger := rfl
  rw [heed_ok hserve]
  refine ⟨?facts, (fun _ hmem => by cases hmem), ?pending, ?owned, (List.append_nil _).symm,
    Nat.le_refl _⟩
  case facts =>
    intro r
    rw [hentered, Ledger.takeBack_nil]
    rfl
  case pending =>
    intro retraction time htime
    rw [hentered]
    have hkept := (hdue retraction).symm.trans htime
    split at hkept
    · cases hkept
    · next hne => exact ⟨hkept, Keeper.ownedStore?_erase_of_ne _ hne _⟩
  case owned =>
    intro owner r howner
    rw [Keeper.ownedStore?_erase] at howner
    split at howner
    · cases howner
    · exact .inl howner

/-- A request that is refused writes and takes back nothing. -/
theorem yields_refused {request : Request} {error : KeeperError}
    (hrefusal : site.keeper.refusal? request = some error) : site.Yields request [] site := by
  have hqueue : site.keeper.queue = site.keeper.queue ++ [] := (List.append_nil _).symm
  cases request with
  | put store facts => cases hrefusal
  | operation operation =>
    cases operation with
    | register agent store | unregister agent =>
      exact yields_entered rfl rfl hqueue (Nat.le_refl _)
    | respond rules concept agent extra =>
      have hrespond : site.respond rules concept agent extra = .error error :=
        respond_error (Keeper.ask_eq_error_iff.2 hrefusal)
      refine yields_entered rfl rfl ?_ (Nat.le_refl _)
      simp only [kept, queued, hrespond]
      exact hqueue
    | trigger event | triggerImmediate event | tick now => cases hrefusal

/-- A response is queued as its actions for now. -/
theorem yields_respond {rules : RuleSet} {concept : Concept} {agent : Option AgentId}
    {extra : List (String × Double)} {after : Site} {reply : Reply}
    (hrespond : site.respond rules concept agent extra = .ok (after, reply)) :
    site.Yields (.operation (.respond rules concept agent extra)) [] after := by
  obtain ⟨response, asked, notices⟩ := reply
  obtain ⟨dice, ⟨hnone, rfl⟩ | ⟨rule, _, hsome, rfl⟩⟩ := respond_cases hrespond
  · cases hnone
    refine yields_entered rfl rfl ?_ (Nat.le_refl _)
    simp only [kept, queued, hrespond, List.append_nil]
  · cases hsome
    refine yields_entered rfl rfl ?_ (Nat.le_refl _)
    simp only [kept, queued, hrespond]

/-- An event that is triggered at once writes its facts. -/
theorem yields_triggerImmediate (h : site.Steady) (event : Event) :
    site.Yields (.operation (.triggerImmediate event)) []
      (site.heed (.operation (.triggerImmediate event))) := by
  obtain ⟨after, notices, happly, hleads⟩ := h.applyEvent event
  have hwritten := Ledger.foldl_apply_eq_enter site.keeper site.ledger [event]
  have hkept : after.keeper.queue = site.keeper.queue := by rw [hleads.keeper]
  have hserve : site.serve (.operation (.triggerImmediate event)) = .ok after :=
    map_eq_ok.2 ⟨_, happly, rfl⟩
  rw [heed_ok hserve]
  exact yields_entered (hleads.ledger.trans hwritten) hleads.ownedStore?
    (hkept.trans (List.append_nil _).symm) hleads.length

/-- A tick writes the facts of the events that waited, and takes back what is due then. -/
theorem yields_tick (h : site.Steady) (now : Double) :
    ∃ due, site.Yields (.operation (.tick now)) due (site.heed (.operation (.tick now))) := by
  obtain ⟨after, notices, due, htick, hkeeper, _, hlength, hdue, hledger, _⟩ := h.tick now
  have hwritten :=
    Ledger.foldl_apply_eq_enter { site.keeper with now } site.ledger site.keeper.queue
  rw [hwritten] at hdue hledger
  have hserve : site.serve (.operation (.tick now)) = .ok after := map_eq_ok.2 ⟨_, htick, rfl⟩
  rw [heed_ok hserve]
  refine ⟨due, yields_of_ledger hledger (fun r hmem => ⟨now, rfl, hdue r hmem⟩) ?_ ?_ hlength⟩
  · rw [hkeeper]
    rfl
  · rw [hkeeper]
    rfl

/-- Whatever a request is, and whether it is refused or not, it does nothing to the stores but to
write the facts of its events and to take back what is due. -/
theorem yields (h : site.Steady) (request : Request) :
    ∃ due, site.Yields request due (site.heed request) := by
  cases hrefusal : site.keeper.refusal? request with
  | some error =>
    rw [heed_error (serve_error hrefusal)]
    exact ⟨[], yields_refused hrefusal⟩
  | none =>
    have hqueue : site.keeper.queue = site.keeper.queue ++ [] := (List.append_nil _).symm
    cases request with
    | put store facts => exact ⟨[], yields_entered rfl rfl hqueue (Bank.length_le_put ..)⟩
    | operation operation =>
      cases operation with
      | register agent store =>
        have hnew := Keeper.get?_of_taken?_eq_none hrefusal
        exact ⟨[], h.yields_register hnew store⟩
      | unregister agent =>
        obtain ⟨store, hstore⟩ := Keeper.get?_of_missing?_eq_none hrefusal
        exact ⟨[], h.yields_unregister hstore⟩
      | trigger event => exact ⟨[], yields_entered rfl rfl rfl (Nat.le_refl _)⟩
      | triggerImmediate event => exact ⟨[], h.yields_triggerImmediate event⟩
      | respond rules concept agent extra =>
        obtain ⟨after, hserve, _⟩ := h.serve hrefusal
        obtain ⟨⟨next, reply⟩, hrespond, rfl⟩ := map_eq_ok.1 hserve
        rw [heed_ok hserve]
        exact ⟨[], yields_respond hrespond⟩
      | tick now => exact h.yields_tick now

end Steady

/-! ## What is pending was written last -/

/-- Time plays no part in who has which store. -/
theorem ownedStore?_moved (site : Site) (request : Request) :
    (site.moved request).ownedStore? = site.keeper.ownedStore? := by
  cases request with
  | put store facts => rfl
  | operation operation => cases operation <;> rfl

/-- A request writes facts of its events, for everyone or for the agent of the event, to the stores
that they have. -/
theorem of_mem_written {request : Request} {write : Written} (h : write ∈ site.written request) :
    site.keeper.ownedStore? write.owner = some write.store ∧
      ∃ event ∈ site.applied request, write ∈ (site.moved request).writes event ∧
        (write.owner = none ∨ write.owner = event.agent) := by
  obtain ⟨event, hevent, hwrite⟩ := List.mem_flatMap.1 h
  obtain ⟨hstore, howner⟩ := Keeper.of_mem_writes hwrite
  rw [ownedStore?_moved] at hstore
  exact ⟨hstore, event, hevent, hwrite, howner⟩

/-- What is pending for an owner was scheduled by its latest write to the key, which went to the
store that the owner has. -/
def Traced (site : Site) (log : List Written) (owner : Option AgentId) : Prop :=
  ∀ key, ∀ time ∈ site.keeper.retractions.dueTime? ⟨key, owner⟩,
    ∃ write, Written.latest? (·.retraction = ⟨key, owner⟩) log = some write ∧
      write.due = some time ∧ site.keeper.ownedStore? owner = some write.store

namespace Traced

variable {log : List Written} {owner : Option AgentId}

/-- Nothing is pending where a keeper begins. -/
theorem start (shared : StoreRef) (dice : Dice) (bank : Bank) (owner : Option AgentId) :
    (Site.start shared dice bank).Traced [] owner := by
  intro key time htime
  cases htime

/-- What is to be taken back once a request has written was scheduled by the latest write, too. -/
theorem entered (h : site.Traced log owner) {request : Request} {key : String} {time : Double}
    (htime : (site.entered request).due ⟨key, owner⟩ = some time) :
    ∃ write, Written.latest? (·.retraction = ⟨key, owner⟩) (log ++ site.written request) =
        some write ∧
      write.due = some time ∧ site.keeper.ownedStore? owner = some write.store := by
  rw [Site.entered, Ledger.due_foldl_enter] at htime
  rw [Written.latest?_append]
  split at htime
  · next write hlatest =>
    rw [hlatest, Option.some_or]
    obtain ⟨hmem, hretraction⟩ := Written.mem_of_latest? hlatest
    have howner : write.owner = owner :=
      congrArg Retraction.owner (of_decide_eq_true hretraction)
    exact ⟨write, rfl, htime, howner ▸ (of_mem_written hmem).1⟩
  · next hlatest =>
    rw [hlatest, Option.none_or]
    exact h key time htime

/-- Each request adds its writes to the log. -/
theorem heed (h : site.Traced log owner) (hsteady : site.Steady) (request : Request) :
    (site.heed request).Traced (log ++ site.written request) owner := by
  obtain ⟨due, hyields⟩ := hsteady.yields request
  intro key time htime
  obtain ⟨hentered, howned⟩ := hyields.pending _ time htime
  obtain ⟨write, hlatest, hdue, hstore⟩ := h.entered hentered
  exact ⟨write, hlatest, hdue, howned.trans hstore⟩

/-- Requests add their writes to the log one after the other. -/
theorem heedAll (h : site.Traced log owner) (hsteady : site.Steady) (requests : List Request) :
    (site.heedAll requests).Traced (log ++ site.writtenAll requests) owner := by
  induction requests generalizing site log with
  | nil => exact (List.append_nil log).symm ▸ h
  | cons request rest ih =>
    have hrest := ih (h.heed hsteady request) (hsteady.heed request).1
    rwa [List.append_assoc] at hrest

end Traced

end Site

end FactRules
