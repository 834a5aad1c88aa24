import FactRules.Proofs.Keeper.History

/-!
# Chronicles

An `Operation` is what a host asks of a keeper, and `Site.run` performs operations one after the
other. A `Chronicle` follows a run from the outside: it knows which events wait for the next tick
and what happened to the facts so far (`History`).

A run starts with a keeper without agents. A host keeps to three rules (`Site.Admits`): times are
finite numbers, times to live are not `nan`, and a store that is registered is free.
-/

namespace FactRules

/-! ## Operations -/

/-- What a host asks of a keeper. Like an agent, nobody may be registered and unregistered. -/
inductive Operation where
  | register (agent : Option AgentId) (store : Option StoreRef)
  | unregister (agent : Option AgentId)
  | trigger (event : Event)
  | triggerImmediate (event : Event)
  | respond (rules : RuleSet) (concept : Concept) (agent : Option AgentId)
      (extra : List (String × Double))
  | tick (now : Double)

namespace Site

/-- The site after an operation. -/
def after (site : Site) : Operation → Except KeeperError Site
  | .register agent store => (site.register agent store).map Prod.fst
  | .unregister agent => (site.keeper.unregister agent).map fun keeper => ⟨keeper, site.bank⟩
  | .trigger event => .ok ⟨site.keeper.trigger event, site.bank⟩
  | .triggerImmediate event => (site.applyEvent event).map Prod.fst
  | .respond rules concept agent extra => (site.respond rules concept agent extra).map Prod.fst
  | .tick now => (site.tick now).map Prod.fst

/-- Performs an operation. One that is refused changes nothing. -/
def perform (site : Site) (operation : Operation) : Site :=
  match site.after operation with
  | .ok after => after
  | .error _ => site

/-- An operation that succeeds leads to the site that it gives. -/
theorem perform_ok {site next : Site} {operation : Operation}
    (h : site.after operation = .ok next) : site.perform operation = next := by
  rw [perform, h]

/-- A refused operation leaves the site. -/
theorem perform_error {site : Site} {operation : Operation} {error : KeeperError}
    (h : site.after operation = .error error) : site.perform operation = site := by
  rw [perform, h]

/-- Performs operations one after the other. -/
def run (site : Site) (operations : List Operation) : Site := operations.foldl perform site

/-- A keeper without agents at time zero, and its bank. -/
def start (shared : StoreRef) (dice : Dice) (bank : Bank) : Site := ⟨.ofShared shared dice, bank⟩

end Site

/-! ## What a host may ask -/

/-- Whether a number is neither `nan` nor infinite. -/
def Binary.isFinite {f : Format} : Binary f → Bool
  | nan => false
  | num _ rank _ => decide (rank ≠ f.infinityRank)

/-- A keeper starts at a finite time. -/
theorem Site.isFinite_now_start (shared : StoreRef) (dice : Dice) (bank : Bank) :
    (start shared dice bank).keeper.now.isFinite = true := by
  have hzero : (Binary.zero : Double).isFinite = true := by decide
  exact hzero

/-- A time to live that is not `nan`, if there is one. -/
def Action.IsTimed : Action → Prop
  | .addFact _ _ _ (some seconds) => seconds.isNan = false
  | .addFact _ _ _ none | .randomText _ => True

instance : DecidablePred Action.IsTimed
  | .addFact _ _ _ (some seconds) => inferInstanceAs (Decidable (seconds.isNan = false))
  | .addFact _ _ _ none | .randomText _ => .isTrue trivial

/-- Whether a host may ask for an operation: it ticks at finite times, times to live are not `nan`,
and the store it registers whoever is new with is free. -/
def Site.Admits (site : Site) : Operation → Prop
  | .register agent (some store) =>
    site.keeper.agents.get? agent = none → site.IsFree store
  | .trigger event | .triggerImmediate event => ∀ action ∈ event.actions, action.IsTimed
  | .respond rules .. => ∀ rule ∈ rules.rules, ∀ action ∈ rule.response.now, action.IsTimed
  | .tick now => now.isFinite
  | .register _ none | .unregister _ => True

instance (site : Site) : DecidablePred site.Admits
  | .register agent (some store) =>
    inferInstanceAs (Decidable (site.keeper.agents.get? agent = none → site.IsFree store))
  | .trigger event | .triggerImmediate event =>
    inferInstanceAs (Decidable (∀ action ∈ event.actions, action.IsTimed))
  | .respond rules .. =>
    inferInstanceAs (Decidable (∀ rule ∈ rules.rules, ∀ action ∈ rule.response.now, action.IsTimed))
  | .tick now => inferInstanceAs (Decidable (now.isFinite = true))
  | .register _ none | .unregister _ => .isTrue trivial

/-- Whether a host may ask for operations one after the other. -/
def Site.AdmitsAll : Site → List Operation → Prop
  | _, [] => True
  | site, operation :: rest => site.Admits operation ∧ (site.perform operation).AdmitsAll rest

instance Site.decideAdmitsAll : ∀ site operations, Decidable (Site.AdmitsAll site operations)
  | _, [] => .isTrue trivial
  | site, operation :: rest =>
    have := decideAdmitsAll (site.perform operation) rest
    inferInstanceAs (Decidable (site.Admits operation ∧ (site.perform operation).AdmitsAll rest))

/-! ## Chronicles -/

/-- The events that wait for the next tick, and what happened. -/
structure Chronicle where
  waiting : List Event
  past : History

namespace Chronicle

/-- The chronicle of a keeper without agents whose store holds the given facts. -/
def start (facts : FactStore) : Chronicle := ⟨[], [.began facts]⟩

/-- Records an operation that a site is asked for. -/
def record (chronicle : Chronicle) (site : Site) : Operation → Chronicle
  | .register agent store =>
    if chronicle.past.isOpen agent then chronicle
    else { chronicle with past := .registered agent (site.offered store) :: chronicle.past }
  | .unregister agent =>
    if chronicle.past.isOpen agent then
      { chronicle with past := .unregistered agent :: chronicle.past }
    else chronicle
  | .trigger event => { chronicle with waiting := chronicle.waiting ++ [event] }
  | .triggerImmediate event =>
    { chronicle with past := chronicle.past.apply chronicle.past.now event }
  | .respond rules concept agent extra =>
    match site.respond rules concept agent extra with
    | .ok (_, ⟨some response, _, _⟩) =>
      { chronicle with waiting := chronicle.waiting ++ [⟨response.now, agent⟩] }
    | .ok (_, ⟨none, _, _⟩) | .error _ => chronicle
  | .tick now => ⟨[], .ticked now :: chronicle.waiting.foldl (History.apply now) chronicle.past⟩

/-- Records the operations that a site is asked for one after the other. -/
def recordAll : Chronicle → Site → List Operation → Chronicle
  | chronicle, _, [] => chronicle
  | chronicle, site, operation :: rest =>
    (chronicle.record site operation).recordAll (site.perform operation) rest

end Chronicle

end FactRules
