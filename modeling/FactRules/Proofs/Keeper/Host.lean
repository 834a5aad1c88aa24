import FactRules.Proofs.Keeper.Chronicle
import FactRules.Proofs.Keeper.Outlook
import FactRules.Proofs.Query.MostSpecific

/-!
# Hosts with stores for each agent

A `Host` has stores for each agent and for nobody, no two of them have one in common (`Allots`),
and it asks a keeper for what it does (`Deed`). Of these deeds, an agent is shown those that may
change what it sees (`Host.shows`), and to the agent such a deed is a step of its outlook
(`Outlook.step`). Deeds that belong to other agents are not shown, and nobody is like another agent
but for one thing: where a shared fact is to be taken back, unregistering nobody calls it off.
-/

namespace FactRules

/-! ## Hosts and their deeds -/

/-- What a host asks of a keeper. A store is told by its place among the stores that the host has
for whom it registers. Like an agent, nobody may be registered and unregistered. -/
inductive Deed where
  | register (agent : Option AgentId) (place : Option Nat)
  | unregister (agent : Option AgentId)
  | trigger (event : Event)
  | triggerImmediate (event : Event)
  | respond (rules : RuleSet) (concept : Concept) (agent : Option AgentId)
      (extra : List (String × Double))
  | tick (now : Double)

/-- A host has for each agent, and for nobody, the stores that it began with and those that it got
when it registered the agent without one. -/
structure Host where
  site : Site
  stores : Option AgentId → List StoreRef

namespace Host

/-- Registers an agent with a store of the host, or with a new one if there is none in the place. -/
def register (host : Host) (agent : Option AgentId) (place : Option Nat) : Host :=
  match place.bind fun place => (host.stores agent)[place]? with
  | some store => { host with site := host.site.perform (.register agent (some store)) }
  | none =>
    match host.site.register agent none with
    | .ok (site, store) =>
      ⟨site, fun other => if other = agent then host.stores agent ++ [store] else host.stores other⟩
    | .error _ => host

/-- Does what a host asks for. What is refused changes nothing. -/
def perform (host : Host) : Deed → Host
  | .register agent place => host.register agent place
  | .unregister agent => { host with site := host.site.perform (.unregister agent) }
  | .trigger event => { host with site := host.site.perform (.trigger event) }
  | .triggerImmediate event => { host with site := host.site.perform (.triggerImmediate event) }
  | .respond rules concept agent extra =>
    { host with site := host.site.perform (.respond rules concept agent extra) }
  | .tick now => { host with site := host.site.perform (.tick now) }

/-- Does what a host asks for, one after the other. -/
def run (host : Host) (deeds : List Deed) : Host := deeds.foldl perform host

/-- Whether a deed may change what an agent sees. Others belong to other agents: they register or
unregister one, or trigger an event that is not for the agent and writes no shared fact. So it is
with nobody, unless unregistering nobody calls off that a shared fact is taken back. -/
def shows (host : Host) (agent : AgentId) : Deed → Bool
  | .register other _ => decide (other = some agent)
  | .unregister none =>
    host.site.keeper.agents.contains none &&
      host.site.keeper.retractions.tasks.any (·.owner.isNone)
  | .unregister (some other) => decide (other = agent)
  | .trigger event | .triggerImmediate event => event.concerns agent
  | .respond .. | .tick _ => true

/-- Those of some deeds that may change what an agent sees when they are done one after the
other. -/
def shown (agent : AgentId) : Host → List Deed → List Deed
  | _, [] => []
  | host, deed :: rest =>
    if host.shows agent deed then deed :: (host.perform deed).shown agent rest
    else (host.perform deed).shown agent rest

variable {host : Host} {agent : AgentId} {deed : Deed} {rest : List Deed}

/-- A deed that may change what the agent sees is among those that are shown. -/
theorem shown_cons_of_shows (h : host.shows agent deed = true) :
    host.shown agent (deed :: rest) = deed :: (host.perform deed).shown agent rest := if_pos h

/-- Any other is passed over. -/
theorem shown_cons_of_not_shows (h : host.shows agent deed = false) :
    host.shown agent (deed :: rest) = (host.perform deed).shown agent rest :=
  if_neg (Bool.eq_false_iff.1 h)

end Host

namespace Deed

/-- Times are finite, times to live are not `nan`, and responses are for an agent or for nobody. -/
def Suits (agent : AgentId) : Deed → Prop
  | .register .. | .unregister _ => True
  | .trigger event | .triggerImmediate event => ∀ action ∈ event.actions, action.IsTimed
  | .respond rules _ who _ => (who = none ∨ who = some agent) ∧
    ∀ rule ∈ rules.rules, ∀ action ∈ rule.response.now, action.IsTimed
  | .tick now => now.isFinite

instance (agent : AgentId) : DecidablePred (Suits agent)
  | .register .. | .unregister _ => .isTrue trivial
  | .trigger event | .triggerImmediate event =>
    inferInstanceAs (Decidable (∀ action ∈ event.actions, action.IsTimed))
  | .respond rules _ who _ => inferInstanceAs (Decidable ((who = none ∨ who = some agent) ∧
      ∀ rule ∈ rules.rules, ∀ action ∈ rule.response.now, action.IsTimed))
  | .tick now => inferInstanceAs (Decidable (now.isFinite = true))

end Deed

/-! ## What a deed is to an agent -/

/-- The response of one of some rules that is drawn, if there are any, and the dice afterwards. -/
def drawn (rules : List Rule) (dice : Dice) : Option Response × Dice :=
  if hpos : 0 < rules.length then
    (some (rules.get (dice.roll rules.length hpos).1).response, (dice.roll rules.length hpos).2)
  else (none, dice)

/-- Running a query draws one of the rules that match. -/
theorem Query.run_eq_drawn (query : Query) (rules : RuleSet) (bank : Bank) (dice : Dice) :
    ((query.run rules bank dice).response, (query.run rules bank dice).dice) =
      drawn (query.matching rules bank) dice := by
  rw [drawn]
  split
  · next hpos =>
    obtain ⟨hresponse, _, hdice⟩ := run_of_matching rfl dice hpos
    rw [hresponse, hdice, List.get_eq_getElem]
    rfl
  · next hnone =>
    have hnil := List.eq_nil_of_length_eq_zero (Nat.eq_zero_of_not_pos hnone)
    obtain ⟨hresponse, _, hdice⟩ := run_of_matching_nil hnil dice
    rw [hresponse, hdice]

namespace Outlook

/-- The agent is registered with a store of its own or with a new one, if it is not yet. -/
def register (place : Option Nat) (view : Outlook) : Outlook :=
  if view.own.isSome then view
  else
    match place.filter (· < view.stores.length) with
    | none => { view with stores := view.stores ++ [∅], own := some view.stores.length }
    | some place => { view with own := some place }

/-- The agent is unregistered, and nothing is to be taken back for it any more. -/
def unregister (view : Outlook) : Outlook :=
  if view.own.isSome then { view with own := none, ownDue := fun _ => none } else view

/-- No shared fact is to be taken back any more. -/
def callOff (view : Outlook) : Outlook := { view with sharedDue := fun _ => none }

/-- Events are queued, those that concern the agent. -/
def enqueue (agent : AgentId) (events : List Event) (view : Outlook) : Outlook :=
  { view with waiting := view.waiting ++ events.filter (·.concerns agent) }

/-- An event that does not concern the agent is not seen to wait. -/
theorem enqueue_of_not_concerns {agent : AgentId} {event : Event}
    (h : event.concerns agent = false) (view : Outlook) : view.enqueue agent [event] = view := by
  rw [enqueue, List.filter_singleton, h, cond_false, List.append_nil]

/-- The facts of the store that the agent is registered with. -/
def ownFacts? (view : Outlook) : Option FactStore := view.own.bind fun place => view.stores[place]?

/-- The chain of a query for the agent, if it is registered, or for nobody. -/
def chain? (view : Outlook) (extra : List (String × Double)) : Option AgentId → Option Chain
  | none => some [view.shared, .ofList extra]
  | some _ => view.ownFacts?.map fun own => [view.shared, own, .ofList extra]

/-- A response is drawn and queued, if the agent can be asked for. -/
def respond (agent : AgentId) (rules : RuleSet) (concept : Concept) (who : Option AgentId)
    (extra : List (String × Double)) (view : Outlook) : Outlook :=
  match view.chain? extra who with
  | none => view
  | some chain =>
    let (response, dice) := drawn (rules.matching concept chain) view.dice
    enqueue agent (response.toList.map fun response => ⟨response.now, who⟩) { view with dice }

/-- Time moves on: queued events are applied, then what is due is taken back. -/
def tick (agent : AgentId) (now : Double) (view : Outlook) : Outlook :=
  { (view.waiting.foldl (apply agent) { view with now }).expire now with waiting := [] }

/-- What a deed that is shown to an agent makes of what the agent sees. -/
def step (agent : AgentId) (view : Outlook) : Deed → Outlook
  | .register _ place => view.register place
  | .unregister none => view.callOff
  | .unregister (some _) => view.unregister
  | .trigger event => view.enqueue agent [event]
  | .triggerImmediate event => view.apply agent event
  | .respond rules concept who extra => view.respond agent rules concept who extra
  | .tick now => view.tick agent now

end Outlook

/-! ## Stores that are apart -/

/-- The stores of a host are in a bank of some size, and no store is for two. -/
structure Allots (shared : StoreRef) (size : Nat) (stores : Option AgentId → List StoreRef) :
    Prop where
  begun : shared.index < size
  held : ∀ agent, ∀ store ∈ stores agent, store.index < size ∧ store ≠ shared
  nodup : ∀ agent, (stores agent).Nodup
  disjoint : ∀ {agent other store}, store ∈ stores agent → store ∈ stores other → agent = other

namespace Allots

variable {shared : StoreRef} {size larger : Nat} {stores : Option AgentId → List StoreRef}

/-- Stores that are apart in a bank are apart in a larger one. -/
theorem mono (h : Allots shared size stores) (hle : size ≤ larger) :
    Allots shared larger stores where
  begun := Nat.lt_of_lt_of_le h.begun hle
  held agent store hmem :=
    ⟨Nat.lt_of_lt_of_le (h.held agent store hmem).1 hle, (h.held agent store hmem).2⟩
  nodup := h.nodup
  disjoint := h.disjoint

/-- A store that the bank did not have is nobody's. -/
theorem not_mem_fresh (h : Allots shared size stores) (agent : Option AgentId) :
    ⟨size⟩ ∉ stores agent :=
  fun hmem => Nat.lt_irrefl _ (h.held agent _ hmem).1

/-- A store that is made for an agent is added to its stores. -/
theorem add (h : Allots shared size stores) (agent : Option AgentId) (hlt : size < larger) :
    Allots shared larger fun other =>
      if other = agent then stores agent ++ [⟨size⟩] else stores other := by
  have hcases : ∀ {other store},
      store ∈ (if other = agent then stores agent ++ [⟨size⟩] else stores other) →
      store ∈ stores other ∨ other = agent ∧ store = ⟨size⟩ := by
    intro other store hmem
    split at hmem
    · next heq =>
      subst heq
      rcases List.mem_append.1 hmem with hmem | hmem
      · exact .inl hmem
      · exact .inr ⟨rfl, List.mem_singleton.1 hmem⟩
    · exact .inl hmem
  refine ⟨Nat.lt_trans h.begun hlt, fun other store hmem => ?_, fun other => ?_, ?_⟩
  · rcases hcases hmem with hold | ⟨rfl, rfl⟩
    · exact ⟨Nat.lt_trans (h.held other store hold).1 hlt, (h.held other store hold).2⟩
    · exact ⟨hlt, fun heq => Nat.ne_of_lt h.begun (congrArg StoreRef.index heq).symm⟩
  · split
    · refine List.nodup_append.2 ⟨h.nodup agent, List.nodup_singleton _, ?_⟩
      intro store hmem other hother heq
      rw [List.mem_singleton.1 hother] at heq
      exact h.not_mem_fresh agent (heq ▸ hmem)
    · exact h.nodup other
  · intro first second store hfirst hsecond
    rcases hcases hfirst with hold | ⟨rfl, rfl⟩
    · rcases hcases hsecond with hother | ⟨rfl, rfl⟩
      · exact h.disjoint hold hother
      · exact absurd hold (h.not_mem_fresh first)
    · rcases hcases hsecond with hother | ⟨rfl, _⟩
      · exact absurd hother (h.not_mem_fresh second)
      · rfl

end Allots

end FactRules
