import FactRules.Proofs.Keeper.Host
import FactRules.Proofs.Keeper.Ticks

/-!
# Responding

A call asks a keeper for a response. It looks keys up in the shared store, then in that of the
agent, then among its own facts. It is refused for an agent that is not registered, and it changes
nothing if no rule answers it. Otherwise one number is drawn among the most specific rules, and the
actions for now of the chosen one are queued: this is all that changes (`Site.RespondsTo`).

So calls between two ticks do not see each other. They come to the events that are drawn from the
stores as they were before the first of them (`Site.drawAll`), and all that is left of the calls is
what is left of their events (`Site.respondAll_eq`). A tick never looks at the dice
(`Site.tick_withDice`), so it makes of the calls what it makes of their events, triggered by the
host.
-/

namespace FactRules

/-! ## Calls -/

/-- What a keeper is asked to respond to. -/
structure Call where
  rules : RuleSet
  concept : Concept
  agent : Option AgentId
  extra : List (String × Double)

namespace Call

/-- The rules that a call chooses from: the most specific ones of those that answer it, where a key
is looked up in the given stores in turn, then among the call's own facts. -/
def tier (call : Call) (stores : List FactStore) : List Rule :=
  mostSpecific (call.rules.rules.filter
    (Rule.answers call.concept fun key => valueFor (.ofList call.extra) key stores))

/-- The events that a response to a call comes to. -/
def events (call : Call) (response : Option Response) : List Event :=
  response.toList.map fun response => ⟨response.now, call.agent⟩

/-- The call as a request. -/
def request (call : Call) : Request :=
  .operation (.respond call.rules call.concept call.agent call.extra)

end Call

namespace Site

variable {site : Site} {call : Call}

/-- The stores that are looked into for an agent or for nobody, in order. There are none for an
agent that is not registered. -/
def storesFor? (site : Site) : Option AgentId → Option (List FactStore)
  | none => some [site.bank.get site.keeper.shared]
  | some agent => (site.keeper.agents.get? (some agent)).map fun store =>
      [site.bank.get site.keeper.shared, site.bank.get store]

/-- Responds to a call. -/
def respondTo (site : Site) (call : Call) : Except KeeperError (Site × Reply) :=
  site.respond call.rules call.concept call.agent call.extra

/-- What responding to a call does to a site. -/
structure RespondsTo (site : Site) (call : Call) : Prop where
  /-- For an agent that is not registered it is refused and changes nothing. -/
  unknown : site.storesFor? call.agent = none →
    site.respondTo call = .error (.unknownAgent call.agent) ∧ site.heed call.request = site
  /-- If no rule answers, nothing is drawn, and nothing changes. -/
  unanswered : ∀ stores, site.storesFor? call.agent = some stores → call.tier stores = [] →
    ∃ notices, site.respondTo call = .ok (site, ⟨none, [], notices⟩)
  /-- Otherwise one number is drawn, the response is that of the drawn rule, and its actions for now
  wait for the agent behind all others. -/
  answered : ∀ stores, site.storesFor? call.agent = some stores →
    ∀ hpos : 0 < (call.tier stores).length,
      let roll := site.keeper.dice.roll (call.tier stores).length hpos
      let response := ((call.tier stores).get roll.1).response
      ∃ notices, site.respondTo call =
        .ok (⟨{ site.keeper with
          queue := site.keeper.queue ++ [⟨response.now, call.agent⟩], dice := roll.2 }, site.bank⟩,
            ⟨some response, [(call.tier stores).length], notices⟩)

/-- A call for an agent that is not registered cannot be asked. -/
theorem ask_of_storesFor?_eq_none (h : site.storesFor? call.agent = none) :
    site.keeper.ask call.concept call.agent call.extra = .error (.unknownAgent call.agent) := by
  cases hagent : call.agent with
  | none =>
    rw [hagent] at h
    cases h
  | some agent =>
    rw [hagent, storesFor?, Option.map_eq_none_iff] at h
    rw [Keeper.ask_some, Keeper.ownedStore?, h]

/-- The query of a call is matched by the tier of the call. -/
theorem ask_of_storesFor?_eq_some {stores : List FactStore}
    (h : site.storesFor? call.agent = some stores) :
    ∃ query, site.keeper.ask call.concept call.agent call.extra = .ok query ∧
      query.matching call.rules site.bank = call.tier stores := by
  cases hagent : call.agent with
  | none =>
    rw [hagent] at h
    cases h
    exact ⟨_, Keeper.ask_none .., Query.matching_eq ..⟩
  | some agent =>
    rw [hagent, storesFor?] at h
    obtain ⟨store, hstore, rfl⟩ := Option.map_eq_some_iff.1 h
    refine ⟨⟨call.concept, [site.keeper.shared, store], .ofList call.extra⟩, ?_,
      Query.matching_eq ..⟩
    rw [Keeper.ask_some, Keeper.ownedStore?, hstore]

/-- Responding does this in any state. -/
theorem respondsTo (site : Site) (call : Call) : site.RespondsTo call where
  unknown h := by
    have hrefused : site.respondTo call = .error (.unknownAgent call.agent) :=
      respond_error (ask_of_storesFor?_eq_none h)
    have hserve : site.serve call.request = .error (.unknownAgent call.agent) := by
      show (site.respondTo call).map Prod.fst = _
      rw [hrefused]
      rfl
    exact ⟨hrefused, heed_error hserve⟩
  unanswered stores h hnil := by
    obtain ⟨query, hask, hmatching⟩ := ask_of_storesFor?_eq_some h
    obtain ⟨hresponse, hasked, hdice⟩ :=
      Query.run_of_matching_nil (hmatching.trans hnil) site.keeper.dice
    obtain ⟨notices, hrespond⟩ := respond_eq_answered call.rules hask
    rw [hresponse, hasked, answered, hresponse, hdice] at hrespond
    refine ⟨notices, hrespond.trans ?_⟩
    rw [Option.toList_none, List.map_nil, List.append_nil]
  answered stores h hpos := by
    intro roll response
    obtain ⟨query, hask, hmatching⟩ := ask_of_storesFor?_eq_some h
    obtain ⟨hresponse, hasked, hdice⟩ := Query.run_of_matching hmatching site.keeper.dice hpos
    obtain ⟨notices, hrespond⟩ := respond_eq_answered call.rules hask
    rw [hresponse, hasked, answered, hresponse, hdice] at hrespond
    exact ⟨notices, hrespond⟩

/-! ## Calls one after the other -/

/-- The site after a call, and the events that it came to. A call that is refused changes nothing
and comes to none. -/
def respondNext (site : Site) (call : Call) : Site × List Event :=
  match site.respondTo call with
  | .ok (after, reply) => (after, call.events reply.response)
  | .error _ => (site, [])

/-- The site after some calls, and the events that they came to, in order. -/
def respondAll : Site → List Call → Site × List Event
  | site, [] => (site, [])
  | site, call :: rest =>
    let (next, events) := site.respondNext call
    let (last, others) := next.respondAll rest
    (last, events ++ others)

/-- The rules that a call chooses from. There are none for an agent that is not registered. -/
def tierOf (site : Site) (call : Call) : List Rule :=
  ((site.storesFor? call.agent).map call.tier).getD []

/-- The events that calls come to if all of them look into the stores as they are: for each call one
number is drawn, if there are rules to choose from. -/
def drawAll (site : Site) : Dice → List Call → List Event
  | _, [] => []
  | dice, call :: rest =>
    call.events (drawn (site.tierOf call) dice).1 ++
      site.drawAll (drawn (site.tierOf call) dice).2 rest

/-- The site with events waiting, for each of which a number was drawn. -/
def drawnAndQueued (site : Site) (events : List Event) : Site where
  keeper := { site.keeper with
    queue := site.keeper.queue ++ events
    dice := { site.keeper.dice with used := site.keeper.dice.used + events.length } }
  bank := site.bank

/-- Without events no number is drawn and nothing is queued. -/
theorem drawnAndQueued_nil (site : Site) : site.drawnAndQueued [] = site := by
  rw [drawnAndQueued, List.append_nil]
  rfl

/-- Dice and queue go on where they were left. -/
theorem drawnAndQueued_append (site : Site) (events others : List Event) :
    site.drawnAndQueued (events ++ others) =
      (site.drawnAndQueued events).drawnAndQueued others := by
  simp only [drawnAndQueued, List.append_assoc, List.length_append, Nat.add_assoc]

/-- What waits plays no part in what is drawn. -/
theorem drawAll_drawnAndQueued (events : List Event) (dice : Dice) (calls : List Call) :
    (site.drawnAndQueued events).drawAll dice calls = site.drawAll dice calls := by
  induction calls generalizing dice with
  | nil => rfl
  | cons call rest ih =>
    have htier : (site.drawnAndQueued events).tierOf call = site.tierOf call := rfl
    rw [drawAll, drawAll, htier, ih]

/-- One number is drawn for each response. -/
theorem dice_drawn (call : Call) (rules : List Rule) (dice : Dice) :
    (drawn rules dice).2 =
      { dice with used := dice.used + (call.events (drawn rules dice).1).length } := by
  rw [drawn]
  split
  · rfl
  · rfl

/-- A call queues the event that is drawn for it. -/
theorem respondNext_eq (site : Site) (call : Call) :
    site.respondNext call =
      (site.drawnAndQueued (call.events (drawn (site.tierOf call) site.keeper.dice).1),
        call.events (drawn (site.tierOf call) site.keeper.dice).1) := by
  have hcall := site.respondsTo call
  rw [respondNext]
  cases hstores : site.storesFor? call.agent with
  | none =>
    have htier : site.tierOf call = [] := by rw [tierOf, hstores]; rfl
    rw [(hcall.unknown hstores).1, htier]
    exact congrArg (·, []) (drawnAndQueued_nil site).symm
  | some stores =>
    have htier : site.tierOf call = call.tier stores := by rw [tierOf, hstores]; rfl
    rw [htier]
    by_cases hpos : 0 < (call.tier stores).length
    · obtain ⟨notices, hrespond⟩ := hcall.answered stores hstores hpos
      rw [hrespond, drawn, dif_pos hpos]
      rfl
    · have hnil : call.tier stores = [] :=
        List.eq_nil_of_length_eq_zero (Nat.eq_zero_of_not_pos hpos)
      obtain ⟨notices, hrespond⟩ := hcall.unanswered stores hstores hnil
      rw [hrespond, hnil]
      exact congrArg (·, []) (drawnAndQueued_nil site).symm

/-- Calls queue the events that are drawn for them from the stores as they were before the first of
the calls, and change nothing else. -/
theorem respondAll_eq (site : Site) (calls : List Call) :
    site.respondAll calls =
      (site.drawnAndQueued (site.drawAll site.keeper.dice calls),
        site.drawAll site.keeper.dice calls) := by
  induction calls generalizing site with
  | nil => exact congrArg (·, []) (drawnAndQueued_nil site).symm
  | cons call rest ih =>
    have hdice := dice_drawn call (site.tierOf call) site.keeper.dice
    rw [respondAll, respondNext_eq, drawAll]
    generalize call.events (drawn (site.tierOf call) site.keeper.dice).1 = events at hdice ⊢
    dsimp only
    -- To the other calls the site is as it was, but for the dice.
    rw [ih, drawAll_drawnAndQueued, hdice, drawnAndQueued_append]
    rfl

/-! ## Ticks and dice -/

/-- The site with other dice. -/
def withDice (site : Site) (dice : Dice) : Site := ⟨{ site.keeper with dice }, site.bank⟩

/-- What an operation on the site with other dice comes to if it does not look at the dice. -/
def Result.withDice (result : Result) (dice : Dice) : Result :=
  result.map fun after => (after.1.withDice dice, after.2)

/-- A write does not look at the dice. -/
theorem write_withDice (site : Site) (dice : Dice) (owner : Option AgentId) (store : StoreRef)
    (key : String) (value : Double) (ttl : Option Double) :
    (site.withDice dice).write owner store key value ttl =
      Result.withDice (site.write owner store key value ttl) dice := by
  unfold write
  cases ttl with
  | none => rfl
  | some ttl =>
    simp only [withDice]
    cases (site.keeper.retractions.cancel ⟨key, owner⟩).push (site.keeper.now.add ttl)
        ⟨key, owner⟩ with
    | ok retractions => rfl
    | error error => rfl

/-- Nor does an action, whether it is applied or skipped. -/
theorem applyAction_withDice (agent : Option AgentId) (dice : Dice) (site : Site)
    (action : Action) :
    applyAction agent (site.withDice dice) action =
      Result.withDice (applyAction agent site action) dice := by
  cases action with
  | randomText choices => rfl
  | addFact scope key value ttl =>
    cases scope with
    | everyone => exact site.write_withDice dice none site.keeper.shared key value ttl
    | agent =>
      cases agent with
      | none => rfl
      | some id =>
        have hagents : (site.withDice dice).keeper.agents = site.keeper.agents := rfl
        unfold applyAction
        simp only [hagents]
        cases site.keeper.agents.get? (some id) with
        | none => rfl
        | some store => exact site.write_withDice dice (some id) store key value ttl

/-- If each of two steps does not look at the dice, both together do not. -/
theorem bind_withDice {dice : Dice} {result : Result} {one other : Site × List Notice → Result}
    (h : ∀ after notices,
      other (after.withDice dice, notices) = Result.withDice (one (after, notices)) dice) :
    Result.withDice result dice >>= other = Result.withDice (result >>= one) dice := by
  cases result with
  | error error => rfl
  | ok after => exact h after.1 after.2

/-- Steps that do not look at the dice do not do so in a row. -/
theorem forEach_withDice {α : Type} {step : Site → α → Result} {dice : Dice}
    (hstep : ∀ site item, step (site.withDice dice) item = Result.withDice (step site item) dice)
    (site : Site) (items : List α) :
    forEach step (site.withDice dice) items = Result.withDice (forEach step site items) dice := by
  induction items generalizing site with
  | nil => rfl
  | cons item rest ih =>
    rw [forEach, forEach, hstep]
    refine bind_withDice fun next first => ?_
    dsimp only
    rw [ih]
    exact bind_withDice fun last others => rfl

/-- Nor does taking a fact back. -/
theorem retract_withDice (dice : Dice) (site : Site) (retraction : Retraction) :
    (site.withDice dice).retract retraction =
      Result.withDice (site.retract retraction) dice := by
  have hagents : (site.withDice dice).keeper.agents = site.keeper.agents := rfl
  unfold retract
  cases retraction.owner with
  | none => rfl
  | some id =>
    simp only [Keeper.storeOf, hagents]
    cases site.keeper.agents.get? (some id) with
    | none => rfl
    | some store => rfl

/-- A tick neither looks at the dice nor changes them. -/
theorem tick_withDice (site : Site) (dice : Dice) (now : Double) :
    (site.withDice dice).tick now = Result.withDice (site.tick now) dice := by
  have hevent : ∀ (site : Site) (event : Event),
      (site.withDice dice).applyEvent event = Result.withDice (site.applyEvent event) dice :=
    fun site event => forEach_withDice (applyAction_withDice event.agent dice) site event.actions
  have happly := forEach_withDice hevent ⟨{ site.keeper with now, queue := [] }, site.bank⟩
    site.keeper.queue
  refine (congrArg (· >>= _) happly).trans (bind_withDice fun next applied => ?_)
  have hretract := forEach_withDice (retract_withDice dice)
    ⟨{ next.keeper with retractions := (next.keeper.retractions.popDue now).2 }, next.bank⟩
    (next.keeper.retractions.popDue now).1
  exact (congrArg (· >>= _) hretract).trans (bind_withDice fun left retracted => rfl)

/-! ## What calls leave -/

/-- Ticking after calls comes to the same as ticking after their events, but for the dice. -/
theorem tick_drawnAndQueued (site : Site) (events : List Event) (now : Double) :
    ((site.drawnAndQueued events).tick now).map Prod.fst =
      (site.tickAfter now events).map
        (·.withDice (site.drawnAndQueued events).keeper.dice) := by
  have htriggered : site.drawnAndQueued events =
      Site.withDice ⟨events.foldl Keeper.trigger site.keeper, site.bank⟩
        (site.drawnAndQueued events).keeper.dice := by
    rw [foldl_trigger]
    rfl
  rw [tickAfter, htriggered, tick_withDice]
  cases Site.tick ⟨events.foldl Keeper.trigger site.keeper, site.bank⟩ now with
  | error error => rfl
  | ok after => rfl

/-- Whatever was requested of a keeper before, responding to a call has the effect that it should
have (`RespondsTo`). Any number of calls, one after the other, come to events that are drawn from
the stores as they were before the first of them; the events wait in the order of the calls, a
number was drawn for each of them, and nothing else has changed. A tick then succeeds, and it leaves
what it would have left if the events had just been triggered, but for the dice. -/
theorem calls_leave_their_events (shared : StoreRef) (dice : Dice) (bank : Bank)
    (requests : List Request) :
    let site := (start shared dice bank).heedAll requests
    (∀ call, site.RespondsTo call) ∧
      ∀ calls,
        let (after, events) := site.respondAll calls
        events = site.drawAll site.keeper.dice calls ∧
          after = ⟨{ site.keeper with
            queue := site.keeper.queue ++ events
            dice := { site.keeper.dice with used := site.keeper.dice.used + events.length } },
              site.bank⟩ ∧
          ∀ now, ∃ ticked, site.tickAfter now events = .ok ticked ∧
            (after.tick now).map Prod.fst =
              .ok ⟨{ ticked.keeper with dice := after.keeper.dice }, ticked.bank⟩ := by
  intro site
  have hsteady : site.Steady := ((Steady.ofShared shared dice bank).heedAll requests).1
  refine ⟨site.respondsTo, fun calls => ?_⟩
  rw [respondAll_eq]
  refine ⟨rfl, rfl, fun now => ?_⟩
  obtain ⟨ticked, notices, _, htick, _⟩ := (hsteady.congr site.keeper.now (site.keeper.queue ++
    site.drawAll site.keeper.dice calls) site.keeper.dice site.bank).tick now
  have hafter : site.tickAfter now (site.drawAll site.keeper.dice calls) = .ok ticked := by
    rw [tickAfter, foldl_trigger]
    exact map_eq_ok.2 ⟨_, htick, rfl⟩
  refine ⟨ticked, hafter, ?_⟩
  rw [tick_drawnAndQueued, hafter]
  rfl

end Site

/-- A call to light a lamp if it is not lit. -/
def lampCall : Call where
  rules := ⟨[⟨"light", ⟨.thinkIdle, [⟨"lamp", .zero, .zero⟩]⟩,
    ⟨[.addFact .everyone "lamp" (.ofInt 1) none], []⟩⟩], List.pairwise_singleton ..⟩
  concept := .thinkIdle
  agent := none
  extra := []

/-- A second call does not see the lamp that the first one is to light, but after a tick it is
lit. -/
example :
    let called := (Site.start ⟨0⟩ (.ofPicks []) ∅).respondAll [lampCall, lampCall]
    called.2.length = 2 ∧ (called.1.heed (.operation (.tick .zero))).tierOf lampCall = [] := by
  decide +kernel

end FactRules
