import FactRules.Proofs.Keeper.Fate

/-!
# The ledger of a site

The *ledger* of a site is what its stores hold and when each fact is to be taken back
(`Site.ledger`). It knows no heap, no numbers of entries and no entries that were called off. What a
keeper does is described by what it does to the ledger: an event writes the facts of its actions
(`Ledger.apply`), and a tick takes back what is due (`Ledger.expire`).

A site is *steady* if its schedule has a plan and only facts of owners with stores are to be taken
back (`Site.Steady`). Times may be no numbers then, and stores may be shared in any way. On a steady
site events and ticks never fail (`Steady.applyEvent`, `Steady.tick`). Which facts a tick takes back
is known where the due times are numbers (`Schedule.Timely`).
-/

namespace FactRules

/-- What the stores hold, and when each fact is to be taken back. -/
structure Ledger where
  facts : StoreRef → FactStore
  due : Retraction → Option Double

/-- Whose a fact of a scope is that is written for an agent, if it is written at all. -/
def Scope.owner? (agent : Option AgentId) : Scope → Option (Option AgentId)
  | .everyone => some none
  | .agent => agent.map some

/-- Nobody in particular, and those whom stores are registered for. -/
def Keeper.owners (keeper : Keeper) : List (Option AgentId) := none :: keeper.agents.keys

/-- Who has a store is among the owners. -/
theorem Keeper.mem_owners {keeper : Keeper} {owner : Option AgentId} {store : StoreRef}
    (h : keeper.ownedStore? owner = some store) : owner ∈ keeper.owners := by
  cases owner with
  | none => exact List.mem_cons_self ..
  | some agent =>
    exact List.mem_cons_of_mem _ (OrderedMap.mem_keys_iff.2 (Option.isSome_iff_exists.2 ⟨store, h⟩))

namespace Ledger

/-- The ledger after a fact of an owner is written to a store, to be taken back when it is due, if
it is to be. -/
def write (ledger : Ledger) (owner : Option AgentId) (store : StoreRef) (key : String)
    (value : Double) (due : Option Double) : Ledger where
  facts r := if store = r then (ledger.facts store).add key value else ledger.facts r
  due retraction := if ⟨key, owner⟩ = retraction then due else ledger.due retraction

/-- The ledger after an action for an agent. A fact whose owner has no store is not written. -/
def act (keeper : Keeper) (agent : Option AgentId) (ledger : Ledger) : Action → Ledger
  | .randomText _ => ledger
  | .addFact scope key value ttl =>
    match scope.owner? agent with
    | none => ledger
    | some owner =>
      match keeper.ownedStore? owner with
      | none => ledger
      | some store => ledger.write owner store key value (ttl.map keeper.now.add)

/-- The ledger after the actions of an event. -/
def apply (keeper : Keeper) (ledger : Ledger) (event : Event) : Ledger :=
  event.actions.foldl (act keeper event.agent) ledger

/-- The ledger after some facts are taken back. -/
def takeBack (keeper : Keeper) (due : List Retraction) (ledger : Ledger) : Ledger where
  facts store := (ledger.facts store).removeWhere fun key => due.any fun retraction =>
    decide (keeper.ownedStore? retraction.owner = some store ∧ retraction.key = key)
  due retraction := if retraction ∈ due then none else ledger.due retraction

/-- The ledger after what is due at a time is taken back. -/
def expire (keeper : Keeper) (now : Double) (ledger : Ledger) : Ledger where
  facts store := (ledger.facts store).removeWhere fun key => keeper.owners.any fun owner =>
    decide (keeper.ownedStore? owner = some store) && (ledger.due ⟨key, owner⟩).any (·.le now)
  due retraction := (ledger.due retraction).filter (!·.le now)

/-- Whether a fact of a store is due at a time for one of those who have the store. -/
def isDue (keeper : Keeper) (now : Double) (ledger : Ledger) (store : StoreRef) (key : String) :
    Bool :=
  keeper.owners.any fun owner =>
    decide (keeper.ownedStore? owner = some store) && (ledger.due ⟨key, owner⟩).any (·.le now)

/-- A fact of a store is due if it is for some owner of the store: the owners are all that can have
it. -/
theorem isDue_iff {keeper : Keeper} {now : Double} {ledger : Ledger} {store : StoreRef}
    {key : String} :
    ledger.isDue keeper now store key = true ↔
      ∃ owner, keeper.ownedStore? owner = some store ∧
        (ledger.due ⟨key, owner⟩).any (·.le now) = true := by
  simp only [isDue, List.any_eq_true, Bool.and_eq_true, decide_eq_true_eq]
  exact ⟨fun ⟨owner, _, h⟩ => ⟨owner, h⟩,
    fun ⟨owner, howner, h⟩ => ⟨owner, Keeper.mem_owners howner, howner, h⟩⟩

/-- What is due in a store with one owner is told by the due times of this owner. -/
theorem isDue_of_owner {keeper : Keeper} {owner : Option AgentId} {store : StoreRef}
    (hstore : keeper.ownedStore? owner = some store)
    (honly : ∀ other, keeper.ownedStore? other = some store → other = owner) (ledger : Ledger)
    (now : Double) (key : String) :
    ledger.isDue keeper now store key = (ledger.due ⟨key, owner⟩).any (·.le now) := by
  refine Bool.eq_iff_iff.2 (isDue_iff.trans ⟨?_, fun hdue => ⟨owner, hstore, hdue⟩⟩)
  rintro ⟨other, hother, hdue⟩
  exact honly other hother ▸ hdue

/-- What is due is not found any more, whoever it was due for. -/
theorem lookup?_expire (keeper : Keeper) (now : Double) (ledger : Ledger) (store : StoreRef)
    (key : String) :
    ((ledger.expire keeper now).facts store).lookup? key =
      if ledger.isDue keeper now store key then none else (ledger.facts store).lookup? key :=
  FactStore.lookup?_removeWhere ..

/-- Taking back just what is due is what a time makes of the ledger. -/
theorem takeBack_eq_expire {keeper : Keeper} {due : List Retraction} {ledger : Ledger}
    {now : Double}
    (hdue : ∀ retraction, retraction ∈ due ↔ ∃ time ∈ ledger.due retraction, time.le now = true) :
    ledger.takeBack keeper due = ledger.expire keeper now := by
  refine congrArg₂ Ledger.mk (funext fun store => ?_) (funext fun retraction => ?_)
  · refine congrArg (ledger.facts store).removeWhere (funext fun key => ?_)
    refine Bool.eq_iff_iff.2 (List.any_eq_true.trans (Iff.trans ?_ isDue_iff.symm))
    simp only [decide_eq_true_eq, Option.any_eq_true]
    constructor
    · rintro ⟨retraction, hmem, hstore, rfl⟩
      exact ⟨retraction.owner, hstore, (hdue retraction).1 hmem⟩
    · rintro ⟨owner, hstore, htime⟩
      exact ⟨⟨key, owner⟩, (hdue _).2 htime, hstore, rfl⟩
  · refine (if_congr (hdue retraction) rfl rfl).trans ?_
    cases ledger.due retraction with
    | none => simp
    | some time => cases hle : time.le now <;> simp [hle, Option.filter]

end Ledger

/-- An action's due time is a number, if its fact is to be taken back. -/
def Action.IsDueFrom (now : Double) : Action → Prop
  | .addFact _ _ _ (some seconds) => (now.add seconds).isNan = false
  | .addFact _ _ _ none | .randomText _ => True

namespace Site

variable {site : Site}

/-- What the stores of a site hold, and when each fact is to be taken back. -/
def ledger (site : Site) : Ledger := ⟨site.bank.get, site.keeper.retractions.dueTime?⟩

/-- The schedule of retractions has a plan, and only facts of owners with stores are to be taken
back. -/
structure Steady (site : Site) : Prop where
  sound : site.keeper.retractions.Sound
  owned : ∀ retraction, (site.keeper.retractions.dueTime? retraction).isSome →
    (site.keeper.ownedStore? retraction.owner).isSome

/-- What holds after a step that only writes facts: the keeper is as it was but for what is to be
taken back, the site is steady, and its ledger is the given one. If the due times were numbers and
those that the step adds are (`timed`), they all are. -/
structure Leads (site : Site) (timed : Prop) (ledger : Ledger) (after : Site) : Prop where
  keeper : after.keeper = { site.keeper with retractions := after.keeper.retractions }
  steady : after.Steady
  ledger : after.ledger = ledger
  timely : timed → site.keeper.retractions.Timely → after.keeper.retractions.Timely
  length : site.bank.stores.length ≤ after.bank.stores.length

namespace Leads

variable {middle after : Site} {first second : Prop} {ledger last : Ledger}

/-- Doing nothing leads to the same ledger. -/
theorem refl (h : site.Steady) (timed : Prop) : site.Leads timed site.ledger site :=
  ⟨rfl, h, rfl, fun _ ht => ht, Nat.le_refl _⟩

/-- One step after another leads where both do. The due times that they add must be numbers in
both. -/
theorem trans (h : site.Leads first ledger middle) (h' : middle.Leads second last after) :
    site.Leads (first ∧ second) last after where
  keeper := by rw [h'.keeper, h.keeper]
  steady := h'.steady
  ledger := h'.ledger
  timely ht hs := h'.timely ht.2 (h.timely ht.1 hs)
  length := Nat.le_trans h.length h'.length

/-- A stronger condition on the times that are added will do. -/
theorem imp (h : site.Leads first ledger after) (hsecond : second → first) :
    site.Leads second ledger after :=
  { h with timely := fun ht => h.timely (hsecond ht) }

/-- Writing facts registers and unregisters nobody. -/
theorem ownedStore? (h : site.Leads first ledger after) :
    after.keeper.ownedStore? = site.keeper.ownedStore? := by
  rw [h.keeper]
  rfl

end Leads

namespace Steady

/-- A keeper without agents is steady. -/
theorem ofShared (shared : StoreRef) (dice : Dice) (bank : Bank) :
    Steady ⟨.ofShared shared dice, bank⟩ where
  sound := .empty
  owned retraction hsome := by cases hsome

/-- Writing a fact of an owner with a store succeeds. -/
theorem write (h : site.Steady) {owner : Option AgentId} {store : StoreRef}
    (hstore : site.keeper.ownedStore? owner = some store) (key : String) (value : Double)
    (ttl : Option Double) :
    ∃ after notices, site.write owner store key value ttl = .ok (after, notices) ∧
      site.Leads (∀ seconds ∈ ttl, (site.keeper.now.add seconds).isNan = false)
        (site.ledger.write owner store key value (ttl.map site.keeper.now.add)) after := by
  obtain ⟨retractions, notices, hwrite, hsound, hdue, htimely⟩ :=
    write_ok h.sound owner store key value ttl
  refine ⟨_, notices, hwrite, rfl, ⟨hsound, fun retraction hsome => ?_⟩, ?_,
    fun ht hs => htimely hs ht, Bank.length_le_put ..⟩
  · rw [hdue] at hsome
    split at hsome
    · next heq =>
      subst heq
      exact Option.isSome_iff_exists.2 ⟨store, hstore⟩
    · exact h.owned retraction hsome
  · refine congrArg₂ Ledger.mk (funext fun r => ?_) (funext hdue)
    exact Bank.get_modify ..

/-- Applying an action succeeds. -/
theorem applyAction (h : site.Steady) (agent : Option AgentId) (action : Action) :
    ∃ after notices, Site.applyAction agent site action = .ok (after, notices) ∧
      site.Leads (action.IsDueFrom site.keeper.now) (site.ledger.act site.keeper agent action)
        after := by
  cases action with
  | randomText choices => exact ⟨site, [], rfl, .refl h _⟩
  | addFact scope key value ttl =>
    have hwrite {owner : Option AgentId} {store : StoreRef}
        (hstore : site.keeper.ownedStore? owner = some store) :
        ∃ after notices, site.write owner store key value ttl = .ok (after, notices) ∧
          site.Leads ((Action.addFact scope key value ttl).IsDueFrom site.keeper.now)
            (site.ledger.write owner store key value (ttl.map site.keeper.now.add)) after := by
      obtain ⟨after, notices, hwrite, hleads⟩ := h.write hstore key value ttl
      refine ⟨after, notices, hwrite, hleads.imp fun htimed seconds hseconds => ?_⟩
      cases hseconds
      exact htimed
    cases scope with
    | everyone => exact hwrite rfl
    | agent =>
      cases agent with
      | none => exact ⟨site, [.noAgent key], rfl, .refl h _⟩
      | some id =>
        cases hstore : site.keeper.agents.get? (some id) with
        | none =>
          refine ⟨site, [.unregistered id key], ?_, ?_⟩
          · simp only [Site.applyAction, hstore]
          · have howned : site.keeper.ownedStore? (some id) = none := hstore
            simp only [Ledger.act, Scope.owner?, Option.map_some, howned]
            exact .refl h _
        | some store =>
          have howned : site.keeper.ownedStore? (some id) = some store := hstore
          obtain ⟨after, notices, hwritten, hleads⟩ := hwrite howned
          refine ⟨after, notices, ?_, ?_⟩
          · simp only [Site.applyAction, hstore, hwritten]
          · simp only [Ledger.act, Scope.owner?, Option.map_some, howned]
            exact hleads

/-- Steps that succeed and depend on the stores and the time of the keeper only can be taken for
all items in turn. -/
theorem forEach {α : Type} {step : Site → α → Result} {note : Ledger → α → Ledger}
    {timed : α → Prop} {items : List α} (h : site.Steady)
    (hstep : ∀ next : Site, next.Steady →
      next.keeper = { site.keeper with retractions := next.keeper.retractions } →
      ∀ item ∈ items, ∃ after notices, step next item = .ok (after, notices) ∧
        next.Leads (timed item) (note next.ledger item) after) :
    ∃ after notices, Site.forEach step site items = .ok (after, notices) ∧
      site.Leads (∀ item ∈ items, timed item) (items.foldl note site.ledger) after := by
  induction items generalizing site with
  | nil => exact ⟨site, [], rfl, .refl h _⟩
  | cons item rest ih =>
    obtain ⟨middle, first, hfirst, hmiddle⟩ := hstep site h rfl item (List.mem_cons_self ..)
    obtain ⟨after, others, hrest, hafter⟩ :=
      ih hmiddle.steady fun next hnext hkeeper other hother =>
        hstep next hnext (by rw [hkeeper, hmiddle.keeper]) other (List.mem_cons_of_mem _ hother)
    refine ⟨after, first ++ others, ?_, ?_⟩
    · rw [Site.forEach, hfirst]
      simp only [bind, Except.bind, hrest]
      rfl
    · rw [hmiddle.ledger] at hafter
      exact (hmiddle.trans hafter).imp List.forall_mem_cons.1

/-- Applying an event succeeds. -/
theorem applyEvent (h : site.Steady) (event : Event) :
    ∃ after notices, site.applyEvent event = .ok (after, notices) ∧
      site.Leads (∀ action ∈ event.actions, action.IsDueFrom site.keeper.now)
        (site.ledger.apply site.keeper event) after := by
  refine h.forEach fun next hnext hkeeper action _ => ?_
  obtain ⟨after, notices, hact, hleads⟩ := hnext.applyAction event.agent action
  rw [hkeeper] at hleads
  exact ⟨after, notices, hact, hleads⟩

/-- Applying events succeeds. -/
theorem applyEvents (h : site.Steady) (events : List Event) :
    ∃ after notices, Site.forEach Site.applyEvent site events = .ok (after, notices) ∧
      site.Leads (∀ event ∈ events, ∀ action ∈ event.actions, action.IsDueFrom site.keeper.now)
        (events.foldl (Ledger.apply site.keeper) site.ledger) after := by
  refine h.forEach fun next hnext hkeeper event _ => ?_
  obtain ⟨after, notices, happly, hleads⟩ := hnext.applyEvent event
  rw [hkeeper] at hleads
  exact ⟨after, notices, happly, hleads⟩

/-- Taking back what is popped succeeds. Whatever the times are, it is due; where they are numbers,
it is all that is due. -/
theorem expire (h : site.Steady) (now : Double) :
    let due := (site.keeper.retractions.popDue now).1
    ∃ after notices,
      Site.forEach retract
          ⟨{ site.keeper with retractions := (site.keeper.retractions.popDue now).2 }, site.bank⟩
          due = .ok (after, notices) ∧
      after.keeper = { site.keeper with retractions := after.keeper.retractions } ∧
      after.Steady ∧ site.bank.stores.length ≤ after.bank.stores.length ∧
      (∀ retraction ∈ due, ∃ time ∈ site.ledger.due retraction, time.le now = true) ∧
      after.ledger = site.ledger.takeBack site.keeper due ∧
      (site.keeper.retractions.Timely → after.keeper.retractions.Timely ∧
        after.ledger = site.ledger.expire site.keeper now) := by
  intro due
  obtain ⟨hsound, hpopped, hkept⟩ := h.sound.popDue_within now
  let popped : Site :=
    ⟨{ site.keeper with retractions := (site.keeper.retractions.popDue now).2 }, site.bank⟩
  have howned : ∀ retraction ∈ due, (popped.keeper.ownedStore? retraction.owner).isSome := by
    intro retraction hmem
    obtain ⟨time, htime, _⟩ := hpopped retraction hmem
    exact h.owned retraction (Option.isSome_iff_exists.2 ⟨time, htime⟩)
  obtain ⟨bank, notices, hretract, hlength, hbank⟩ := forEach_retract_eq howned
  have hledger : Site.ledger ⟨popped.keeper, bank⟩ = site.ledger.takeBack site.keeper due :=
    congrArg₂ Ledger.mk (funext hbank) (funext hkept)
  refine ⟨_, notices, hretract, rfl, ⟨hsound, fun retraction hsome => ?_⟩, hlength, hpopped,
    hledger, fun ht => ?_⟩
  · rw [hkept] at hsome
    split at hsome
    · cases hsome
    · exact h.owned retraction hsome
  · obtain ⟨_, htimely, hdue, _⟩ := h.sound.popDue ht now
    exact ⟨htimely, hledger.trans (Ledger.takeBack_eq_expire hdue)⟩

/-- A tick succeeds and leaves no event waiting: it applies the queued events at its time and then
takes back what is due, all of it where the due times are numbers. -/
theorem tick (h : site.Steady) (now : Double) :
    let keeper := { site.keeper with now }
    let written := site.keeper.queue.foldl (Ledger.apply keeper) site.ledger
    ∃ after notices due, site.tick now = .ok (after, notices) ∧
      after.keeper = { keeper with queue := [], retractions := after.keeper.retractions } ∧
      after.Steady ∧ site.bank.stores.length ≤ after.bank.stores.length ∧
      (∀ retraction ∈ due, ∃ time ∈ written.due retraction, time.le now = true) ∧
      after.ledger = written.takeBack keeper due ∧
      (site.keeper.retractions.Timely →
        (∀ event ∈ site.keeper.queue, ∀ action ∈ event.actions, action.IsDueFrom now) →
        after.keeper.retractions.Timely ∧ after.ledger = written.expire keeper now) := by
  intro keeper written
  let moved : Site := ⟨{ site.keeper with now, queue := [] }, site.bank⟩
  have hmoved : moved.Steady := ⟨h.sound, h.owned⟩
  obtain ⟨applied, first, happly, hleads⟩ := hmoved.applyEvents site.keeper.queue
  obtain ⟨after, others, hretract, hkeeper, hsteady, hlength, hdue, hledger, hexpire⟩ :=
    hleads.steady.expire now
  rw [hleads.ledger] at hdue hledger
  refine ⟨after, ?notices, _, ?carried, ?_, hsteady, Nat.le_trans hleads.length hlength, hdue,
    hledger.trans ?_, fun ht htimed => ?_⟩
  case carried =>
    simp only [Site.tick]
    simp only [moved] at happly
    simp only [happly, bind, Except.bind, hretract]
    rfl
  · rw [hkeeper, hleads.keeper]
  · rw [hleads.keeper]
    rfl
  · obtain ⟨htimely, hledger⟩ := hexpire (hleads.timely htimed ht)
    refine ⟨htimely, ?_⟩
    rw [hledger, hleads.ledger, hleads.keeper]
    rfl

end Steady

end Site

end FactRules
