import FactRules.Query.Basic
import FactRules.Schedule.Basic

/-!
# Keepers of facts

A `Keeper` looks after a store that all agents share and a store of each registered agent: which
stores these are, what time it is, which events wait for the next tick and which facts are to be
taken back when. This module holds the operations that need no look into the stores: who is
registered, what a query of an agent asks, and the queue. Those that read or write stores are in
`FactRules.Keeper.Site`.
-/

namespace FactRules

/-- Actions to be applied, for an agent if there is one. -/
structure Event where
  actions : ActionSet
  agent : Option AgentId
deriving DecidableEq

/-- The same actions for another agent. -/
def Event.withAgent (event : Event) (agent : AgentId) : Event := { event with agent := some agent }

/-- A fact to be taken back: from an agent's store, or from the shared one if there is no owner. -/
structure Retraction where
  key : String
  owner : Option AgentId
deriving DecidableEq, Repr

/-- The shared store and the stores registered for agents, the time of the last tick, the events to
be applied at the next one, the facts to be taken back, and the dice that rules are chosen with. A
host may register a store for nobody, too, but queries and actions for nobody do without it. -/
structure Keeper where
  shared : StoreRef
  agents : OrderedMap (Option AgentId) StoreRef
  now : Double
  queue : List Event
  retractions : Schedule Retraction
  dice : Dice

/-- Why a keeper refuses. -/
inductive KeeperError where
  | alreadyRegistered (agent : Option AgentId)
  | unknownAgent (agent : Option AgentId)
  | alreadyScheduled (error : AlreadyScheduled Retraction)

/-- The wording of each refusal. -/
def KeeperError.message : KeeperError → String
  | alreadyRegistered agent => "agent " ++ ownerText agent ++ " already has a fact store registered"
  | unknownAgent agent => "agent " ++ ownerText agent ++ " has no fact store registered"
  | alreadyScheduled error => error.message (·.key)

namespace Keeper

/-- A keeper without agents at time zero. -/
def ofShared (shared : StoreRef) (dice : Dice) : Keeper := ⟨shared, ∅, .zero, [], ∅, dice⟩

/-- The store registered for an agent, or for nobody. -/
def storeOf (keeper : Keeper) (agent : Option AgentId) : Except KeeperError StoreRef :=
  match keeper.agents.get? agent with
  | some store => .ok store
  | none => .error (.unknownAgent agent)

/-- Removes an agent and calls off what was to be taken back for it. For nobody these are the facts
of the shared store. -/
def unregister (keeper : Keeper) (agent : Option AgentId) : Except KeeperError Keeper := do
  let _ ← keeper.storeOf agent
  let owned := keeper.retractions.tasks.filter (·.owner = agent)
  return { keeper with
    agents := keeper.agents.erase agent
    retractions := owned.foldl Schedule.cancel keeper.retractions }

/-- A query over the shared store and then the store of an agent, if one is given. -/
def query (keeper : Keeper) (concept : Concept) (agent : Option AgentId) :
    Except KeeperError Query :=
  let query := (Query.ofConcept concept).addStore keeper.shared
  match agent with
  | none => .ok query
  | some _ => (keeper.storeOf agent).map query.addStore

/-- Queues an event for the next tick. -/
def trigger (keeper : Keeper) (event : Event) : Keeper :=
  { keeper with queue := keeper.queue ++ [event] }

/-- The time at which the next fact is to be taken back, infinity if there is none. -/
def nextTime (keeper : Keeper) : Double × Keeper :=
  let (time, retractions) := keeper.retractions.nextTime
  (time, { keeper with retractions })

end Keeper

end FactRules
