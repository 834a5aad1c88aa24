import FactRules.Keeper.Basic

/-!
# Keepers at work

A `Site` is a keeper with the bank its stores lie in. Agents are registered with stores of the bank,
queries are answered from them (`Site.respond`), and events write to them (`Site.applyEvent`).

The host drives time: at a tick the queued events are applied first, then the facts that are due are
taken back (`Site.tick`). The latest write to a key of an owner decides whether and when the fact is
taken back (`Site.write`).
-/

namespace FactRules

/-- A keeper and the bank its stores lie in. -/
structure Site where
  keeper : Keeper
  bank : Bank

/-- What a keeper says to a concept: the response it chose, the numbers of outcomes drawn from, and
what there is to report. -/
structure Reply where
  response : Option Response
  asked : List Nat
  notices : List Notice

namespace Site

/-- A site after an operation, with what there is to report. -/
abbrev Result := Except KeeperError (Site × List Notice)

/-- Registers an agent, or nobody, with the given store or with a new one, and gives the store. -/
def register (site : Site) (agent : Option AgentId) (store : Option StoreRef) :
    Except KeeperError (Site × StoreRef) :=
  if site.keeper.agents.contains agent then .error (.alreadyRegistered agent)
  else
    let (ref, bank) :=
      match store with
      | some ref => (ref, site.bank)
      | none => site.bank.alloc ∅
    .ok (⟨{ site.keeper with agents := site.keeper.agents.insert agent ref }, bank⟩, ref)

/-- Asks for a response to a concept on the stores and one-time facts; the actions for now of the
chosen response are queued. -/
def respond (site : Site) (rules : RuleSet) (concept : Concept) (agent : Option AgentId)
    (extra : List (String × Double)) : Except KeeperError (Site × Reply) := do
  let query ← site.keeper.query concept agent
  let query := extra.foldl (fun query fact => query.addFact fact.1 fact.2) query
  let answer := query.run rules site.bank site.keeper.dice
  let keeper := { site.keeper with dice := answer.dice }
  match answer.response with
  | none => return (⟨keeper, site.bank⟩, ⟨none, answer.asked, answer.notices⟩)
  | some response =>
    return (⟨keeper.trigger ⟨response.now, agent⟩, site.bank⟩,
      ⟨some response, answer.asked,
        answer.notices ++ [.responded agent concept response.now.choices]⟩)

/-- Applies a step to each item in turn and joins what there is to report. -/
def forEach {α : Type} (step : Site → α → Result) : Site → List α → Result
  | site, [] => .ok (site, [])
  | site, item :: rest => do
    let (site, first) ← step site item
    let (site, others) ← forEach step site rest
    return (site, first ++ others)

/-- Writes a fact of an owner to its store. What was scheduled for the fact before is called off; a
time to live counts from the keeper's time. -/
def write (site : Site) (owner : Option AgentId) (store : StoreRef) (key : String)
    (value : Double) (ttl : Option Double) : Result :=
  let bank := site.bank.modify store (·.add key value)
  let cancelled := site.keeper.retractions.cancel ⟨key, owner⟩
  match ttl with
  | none => .ok (⟨{ site.keeper with retractions := cancelled }, bank⟩, [])
  | some ttl =>
    match cancelled.push (site.keeper.now.add ttl) ⟨key, owner⟩ with
    | .ok retractions =>
      .ok (⟨{ site.keeper with retractions }, bank⟩, [.expiryScheduled key owner ttl])
    | .error error => .error (.alreadyScheduled error)

/-- Applies an action. A fact for an agent is dropped if there is no agent or it is not
registered. -/
def applyAction (agent : Option AgentId) (site : Site) : Action → Result
  | .randomText _ => .ok (site, [])
  | .addFact .everyone key value ttl => site.write none site.keeper.shared key value ttl
  | .addFact .agent key value ttl =>
    match agent with
    | none => .ok (site, [.noAgent key])
    | some id =>
      match site.keeper.agents.get? agent with
      | none => .ok (site, [.unregistered id key])
      | some store => site.write agent store key value ttl

/-- Applies the actions of an event at once. -/
def applyEvent (site : Site) (event : Event) : Result :=
  forEach (applyAction event.agent) site event.actions

/-- Takes a fact back from its owner's store. -/
def retract (site : Site) (retraction : Retraction) : Result := do
  let store ←
    match retraction.owner with
    | none => pure site.keeper.shared
    | some _ => site.keeper.storeOf retraction.owner
  return (⟨site.keeper, site.bank.modify store (·.remove retraction.key)⟩,
    [.expired retraction.key retraction.owner])

/-- Moves time on: applies the queued events, then takes back the facts that are due. -/
def tick (site : Site) (now : Double) : Result := do
  let events := site.keeper.queue
  let (site, applied) ←
    forEach applyEvent ⟨{ site.keeper with now, queue := [] }, site.bank⟩ events
  let (due, retractions) := site.keeper.retractions.popDue now
  let (site, retracted) ← forEach retract ⟨{ site.keeper with retractions }, site.bank⟩ due
  let summary :=
    if events.isEmpty && due.isEmpty then [] else [.ticked events.length due.length now]
  return (site, applied ++ retracted ++ summary)

end Site

end FactRules
