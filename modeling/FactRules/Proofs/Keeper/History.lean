import FactRules.Proofs.Keeper.Fate
import Mathlib.Data.List.Induction

/-!
# Histories

A `History` is what happened to the facts of owners, latest first. What it says of a fact
(`History.fateOf`) needs no store and no schedule: the latest write decides, and of the ticks only
those since that write are looked at.

One thing comes in between. Unregistering nobody, who may be registered like an agent, calls off
what is to be taken back from the shared store (`Happening.callsOff`). What the latest writes
promised is told by the history without that (`History.asPromised`). A promise for a shared fact is
broken exactly if the fact was still to be taken back when nobody was unregistered
(`History.isCalledOff`, `History.fateOf_eq_asPromised_iff`).
-/

namespace FactRules

/-- What happens to the facts of owners: the shared store comes under a keeper with its facts;
someone is registered with the facts of a store, or unregistered; a fact is written, to be taken
back when it is due, if it is to be; time is moved on. -/
inductive Happening where
  | began (facts : FactStore)
  | registered (agent : Option AgentId) (facts : FactStore)
  | unregistered (agent : Option AgentId)
  | wrote (owner : Option AgentId) (key : String) (value : Double) (due : Option Double)
  | ticked (now : Double)

/-- Unregistering nobody calls off what is to be taken back from the shared store. -/
def Happening.callsOff : Happening → Bool
  | .unregistered agent => agent.isNone
  | .began _ | .registered .. | .wrote .. | .ticked _ => false

/-- What happened, the latest first. -/
abbrev History := List Happening

/-- The latest write of a fact: the value, when the fact is to be taken back, and the times of the
ticks since then. -/
structure LatestWrite where
  value : Double
  due : Option Double
  ticks : List Double

/-- Whether one of the ticks since the write was at the due time or later. -/
def LatestWrite.isOver (write : LatestWrite) : Bool :=
  write.due.any fun time => write.ticks.any time.le

namespace History

/-- The time of the last tick, zero before the first one. -/
def now : History → Double
  | [] => .zero
  | .ticked time :: _ => time
  | _ :: past => now past

/-- Whether someone is registered. -/
def isOpen (agent : Option AgentId) : History → Bool
  | [] => false
  | .registered other _ :: past => decide (other = agent) || isOpen agent past
  | .unregistered other :: past => !decide (other = agent) && isOpen agent past
  | .began _ :: past | .wrote .. :: past | .ticked _ :: past => isOpen agent past

/-- What becomes of a fact, given the ticks that came after the history. The latest write of the
fact decides: the fact is present with the written value unless the write had a time to live and one
of the ticks since then was at its end or later. A fact that was not written since its owner's store
came under the keeper is as it was in the store. Unregistering nobody leaves the shared facts as
they are, for good if they are not written again. -/
def fateOf (owner : Option AgentId) (key : String) : List Double → History → Fate
  | _, [] => .absent
  | ticks, .ticked time :: past => fateOf owner key (time :: ticks) past
  | ticks, .wrote other k value due :: past =>
    if other = owner ∧ k = key then
      if due.any fun time => ticks.any time.le then .absent else ⟨some value.toSingle, due⟩
    else fateOf owner key ticks past
  | ticks, .began facts :: past =>
    if owner = none then ⟨facts.lookup? key, none⟩ else fateOf owner key ticks past
  | ticks, .registered agent facts :: past =>
    if owner = agent ∧ agent.isSome then ⟨facts.lookup? key, none⟩ else fateOf owner key ticks past
  | ticks, .unregistered agent :: past =>
    if owner = agent then (fateOf owner key [] past).left owner else fateOf owner key ticks past

/-- The latest write of a fact since its owner's store came under the keeper, given the ticks that
came after the history. -/
def latestWrite? (owner : Option AgentId) (key : String) : List Double → History →
    Option LatestWrite
  | _, [] => none
  | ticks, .ticked time :: past => latestWrite? owner key (time :: ticks) past
  | ticks, .wrote other k value due :: past =>
    if other = owner ∧ k = key then some ⟨value, due, ticks⟩
    else latestWrite? owner key ticks past
  | ticks, .began _ :: past => if owner = none then none else latestWrite? owner key ticks past
  | ticks, .registered agent _ :: past | ticks, .unregistered agent :: past =>
    if owner = agent ∧ agent.isSome then none else latestWrite? owner key ticks past

/-- The history after an action is applied at a time. A fact for an agent that is not registered is
not written. -/
def act (time : Double) (agent : Option AgentId) (past : History) : Action → History
  | .randomText _ => past
  | .addFact .everyone key value ttl => .wrote none key value (ttl.map time.add) :: past
  | .addFact .agent key value ttl =>
    if agent.isSome ∧ past.isOpen agent then .wrote agent key value (ttl.map time.add) :: past
    else past

/-- The history after the actions of an event are applied at a time. -/
def apply (time : Double) (past : History) (event : Event) : History :=
  event.actions.foldl (act time event.agent) past

/-- The history without the happenings that call off what is to be taken back: it tells what the
latest writes promised. -/
def asPromised (past : History) : History := past.filter (!·.callsOff)

/-- Whether a shared fact is to stay though its latest write had a time to live: nobody was
unregistered before the fact was taken back. -/
def isCalledOff (key : String) : History → Bool
  | [] => false
  | .unregistered agent :: past =>
    decide (agent = none) && (fateOf none key [] past).due.isSome || isCalledOff key past
  | .wrote owner k _ _ :: past => !decide (owner = none ∧ k = key) && isCalledOff key past
  | .began _ :: _ => false
  | .registered .. :: past | .ticked _ :: past => isCalledOff key past

variable {past : History} {owner : Option AgentId} {key : String} {ticks : List Double}

/-! ## Time and registrations -/

/-- Actions take no time: the last tick stays the last. -/
theorem now_act (time : Double) (agent : Option AgentId) (past : History) (action : Action) :
    (past.act time agent action).now = past.now := by
  cases action with
  | randomText choices => rfl
  | addFact scope key value ttl =>
    cases scope with
    | everyone => rfl
    | agent =>
      rw [act]
      split
      · rfl
      · rfl

/-- Applying an event moves no time. -/
theorem now_apply (time : Double) (past : History) (event : Event) :
    (past.apply time event).now = past.now := by
  rw [apply]
  induction event.actions generalizing past with
  | nil => rfl
  | cons action rest ih => rw [List.foldl_cons, ih, now_act]

/-- Actions register and unregister nobody. -/
theorem isOpen_act (who : Option AgentId) (time : Double) (agent : Option AgentId)
    (past : History) (action : Action) :
    (past.act time agent action).isOpen who = past.isOpen who := by
  cases action with
  | randomText choices => rfl
  | addFact scope key value ttl =>
    cases scope with
    | everyone => rfl
    | agent =>
      rw [act]
      split
      · rfl
      · rfl

/-- Applying an event registers and unregisters nobody. -/
theorem isOpen_apply (who : Option AgentId) (time : Double) (past : History) (event : Event) :
    (past.apply time event).isOpen who = past.isOpen who := by
  rw [apply]
  induction event.actions generalizing past with
  | nil => rfl
  | cons action rest ih => rw [List.foldl_cons, ih, isOpen_act]

/-- Nor do events. -/
theorem isOpen_applyAll (who : Option AgentId) (time : Double) (past : History)
    (events : List Event) : (events.foldl (apply time) past).isOpen who = past.isOpen who := by
  induction events generalizing past with
  | nil => rfl
  | cons event rest ih => rw [List.foldl_cons, ih, isOpen_apply]

/-! ## Ticks -/

/-- A tick after everything else ends the fate if it is due. -/
theorem fateOf_append (owner : Option AgentId) (key : String) (time : Double)
    (ticks : List Double) (past : History) :
    past.fateOf owner key (ticks ++ [time]) = (past.fateOf owner key ticks).expire time := by
  induction past generalizing ticks with
  | nil => rfl
  | cons happening past ih =>
    cases happening with
    | ticked earlier => exact ih (earlier :: ticks)
    | began | registered =>
      simp only [fateOf]
      split
      · rfl
      · exact ih ticks
    | unregistered agent =>
      simp only [fateOf]
      split
      · cases owner with
        | none => rfl
        | some id => rfl
      · exact ih ticks
    | wrote other k value due =>
      simp only [fateOf]
      split
      · cases due with
        | none => rfl
        | some due =>
          simp only [Option.any_some, List.any_append, List.any_cons, List.any_nil, Bool.or_false,
            Bool.or_eq_true]
          by_cases hticks : ticks.any due.le = true
          · rw [if_pos hticks, if_pos (.inl hticks)]
            rfl
          · rw [if_neg hticks]
            by_cases htime : due.le time = true
            · rw [if_pos (.inr htime), Fate.expire_of_le htime]
            · rw [if_neg (not_or.2 ⟨hticks, htime⟩), Fate.expire_of_not_le htime]
      · exact ih ticks

/-- What a tick as the latest happening does to a fate. -/
theorem fateOf_ticked (owner : Option AgentId) (key : String) (time : Double) (past : History) :
    fateOf owner key [] (.ticked time :: past) = (past.fateOf owner key []).expire time :=
  fateOf_append owner key time [] past

/-- A fact that is not to be taken back outlasts all ticks. -/
theorem fateOf_of_due_eq_none (h : (past.fateOf owner key []).due = none) (ticks : List Double) :
    past.fateOf owner key ticks = past.fateOf owner key [] := by
  induction ticks using List.reverseRecOn with
  | nil => rfl
  | append_singleton ticks time ih => rw [fateOf_append, ih, Fate.expire_of_due_eq_none h]

/-! ## Latest writes -/

/-- Later ticks are added to those since the latest write. -/
theorem latestWrite?_ticks (owner : Option AgentId) (key : String) (ticks : List Double)
    (past : History) :
    past.latestWrite? owner key ticks = (past.latestWrite? owner key []).map fun write =>
      { write with ticks := write.ticks ++ ticks } := by
  induction past generalizing ticks with
  | nil => rfl
  | cons happening past ih =>
    cases happening with
    | ticked time =>
      rw [latestWrite?, latestWrite?, ih, ih [time], Option.map_map]
      refine congrArg (Option.map · _) (funext fun write => ?_)
      simp
    | wrote | began | registered | unregistered =>
      rw [latestWrite?, latestWrite?]
      split
      · rfl
      · exact ih ticks

/-- What is to be taken back was written last with its due time. -/
theorem exists_latestWrite?_of_due (h : (past.fateOf owner key ticks).due.isSome) :
    ∃ write, past.latestWrite? owner key ticks = some write ∧
      past.fateOf owner key ticks = ⟨some write.value.toSingle, write.due⟩ := by
  induction past generalizing ticks with
  | nil => cases h
  | cons happening past ih =>
    cases happening with
    | ticked time => exact ih h
    | wrote other k value due =>
      rw [fateOf] at h
      rw [fateOf, latestWrite?]
      split
      · next hfact =>
        rw [if_pos hfact] at h
        split
        · next hover =>
          rw [if_pos hover] at h
          cases h
        · exact ⟨_, rfl, rfl⟩
      · next hother =>
        rw [if_neg hother] at h
        exact ih h
    | began | registered =>
      rw [fateOf] at h
      rw [fateOf, latestWrite?]
      split
      · next howner =>
        rw [if_pos howner] at h
        cases h
      · next hother =>
        rw [if_neg hother] at h
        exact ih h
    | unregistered agent =>
      rw [fateOf] at h
      rw [fateOf, latestWrite?]
      split at h
      · cases owner with
        | none => cases h
        | some id => cases h
      · next hother =>
        rw [if_neg hother, if_neg fun heq => hother heq.1]
        exact ih h

/-- The latest write of a fact promises its fate. -/
theorem fateOf_asPromised_of_latestWrite? {write : LatestWrite}
    (h : past.latestWrite? owner key ticks = some write) :
    past.asPromised.fateOf owner key ticks =
      if write.isOver then .absent else ⟨some write.value.toSingle, write.due⟩ := by
  induction past generalizing ticks with
  | nil => cases h
  | cons happening past ih =>
    cases happening with
    | ticked time => exact ih h
    | wrote other k value due =>
      rw [latestWrite?] at h
      rw [asPromised, List.filter_cons_of_pos rfl, fateOf]
      split at h
      · next hfact =>
        cases h
        rw [if_pos hfact]
        rfl
      · next hother =>
        rw [if_neg hother]
        exact ih h
    | began | registered =>
      rw [latestWrite?] at h
      rw [asPromised, List.filter_cons_of_pos rfl, fateOf]
      split at h
      · cases h
      · next hother =>
        rw [if_neg hother]
        exact ih h
    | unregistered agent =>
      rw [latestWrite?] at h
      split at h
      · cases h
      · next hother =>
        cases agent with
        | none => exact ih h
        | some id =>
          rw [asPromised, List.filter_cons_of_pos rfl, fateOf, if_neg fun heq => hother ⟨heq, rfl⟩]
          exact ih h

/-! ## What is called off -/

/-- Promises for agents' facts are kept. -/
theorem fateOf_asPromised_some (agent : AgentId) (key : String) (ticks : List Double)
    (past : History) :
    past.asPromised.fateOf (some agent) key ticks = past.fateOf (some agent) key ticks := by
  induction past generalizing ticks with
  | nil => rfl
  | cons happening past ih =>
    cases happening with
    | ticked time => exact ih (time :: ticks)
    | unregistered other =>
      cases other with
      | none => exact ih ticks
      | some other =>
        rw [asPromised, List.filter_cons_of_pos rfl, fateOf, fateOf]
        exact if_congr Iff.rfl rfl (ih ticks)
    | wrote | began | registered =>
      rw [asPromised, List.filter_cons_of_pos rfl, fateOf, fateOf]
      exact if_congr Iff.rfl rfl (ih ticks)

/-- A promise for a shared fact is kept if it was not called off. -/
theorem fateOf_asPromised (h : past.isCalledOff key = false) (ticks : List Double) :
    past.asPromised.fateOf none key ticks = past.fateOf none key ticks := by
  induction past generalizing ticks with
  | nil => rfl
  | cons happening past ih =>
    cases happening with
    | ticked time => exact ih h (time :: ticks)
    | began facts =>
      rw [asPromised, List.filter_cons_of_pos rfl, fateOf, fateOf, if_pos rfl, if_pos rfl]
    | registered agent facts =>
      rw [asPromised, List.filter_cons_of_pos rfl, fateOf, fateOf]
      exact if_congr Iff.rfl rfl (ih h ticks)
    | wrote other k value due =>
      rw [asPromised, List.filter_cons_of_pos rfl, fateOf, fateOf]
      by_cases hfact : other = none ∧ k = key
      · rw [if_pos hfact, if_pos hfact]
      · rw [isCalledOff, decide_eq_false hfact] at h
        rw [if_neg hfact, if_neg hfact]
        exact ih h ticks
    | unregistered agent =>
      obtain ⟨hdue, hpast⟩ := Bool.or_eq_false_iff.1 h
      cases agent with
      | some id =>
        rw [asPromised, List.filter_cons_of_pos rfl, fateOf, fateOf, if_neg nofun, if_neg nofun]
        exact ih hpast ticks
      | none =>
        -- Nothing was to be taken back, so nothing that comes later changes the fate.
        have hnone : (fateOf none key [] past).due = none :=
          Option.not_isSome_iff_eq_none.1 (Bool.eq_false_iff.1 hdue)
        refine (ih hpast ticks).trans ((fateOf_of_due_eq_none hnone ticks).trans ?_)
        rw [fateOf, if_pos rfl, Fate.left, ← hnone]

/-- A shared fact that is called off stays as it was written last. -/
theorem fateOf_of_isCalledOff (h : past.isCalledOff key = true) (ticks : List Double) :
    ∃ write, past.latestWrite? none key ticks = some write ∧ write.due.isSome ∧
      past.fateOf none key ticks = ⟨some write.value.toSingle, none⟩ := by
  induction past generalizing ticks with
  | nil => cases h
  | cons happening past ih =>
    cases happening with
    | ticked time => exact ih h (time :: ticks)
    | began facts => cases h
    | registered agent facts =>
      have hother : ¬ (none = agent ∧ agent.isSome = true) := by
        rintro ⟨rfl, hsome⟩
        cases hsome
      rw [latestWrite?, fateOf, if_neg hother, if_neg hother]
      exact ih h ticks
    | wrote other k value due =>
      obtain ⟨hfact, hpast⟩ := Bool.and_eq_true_iff.1 h
      have hother : ¬ (other = none ∧ k = key) :=
        of_decide_eq_false ((Bool.not_eq_true' _).mp hfact)
      rw [latestWrite?, fateOf, if_neg hother, if_neg hother]
      exact ih hpast ticks
    | unregistered agent =>
      have hother : ¬ (none = agent ∧ agent.isSome = true) := by
        rintro ⟨rfl, hsome⟩
        cases hsome
      rw [latestWrite?, fateOf, if_neg hother]
      rcases (Bool.or_eq_true_iff).1 h with hcalled | hpast
      · obtain ⟨hagent, hdue⟩ := Bool.and_eq_true_iff.1 hcalled
        obtain rfl := of_decide_eq_true hagent
        obtain ⟨write, hwrite, hfate⟩ := exists_latestWrite?_of_due hdue
        refine ⟨{ write with ticks := write.ticks ++ ticks }, ?_, ?_, ?_⟩
        · rw [latestWrite?_ticks, hwrite]
          rfl
        · rw [hfate] at hdue
          exact hdue
        · rw [if_pos rfl, hfate]
          rfl
      · obtain ⟨write, hwrite, hdue, hfate⟩ := ih hpast ticks
        refine ⟨write, hwrite, hdue, ?_⟩
        split
        · obtain ⟨first, hfirst, _, hkept⟩ := ih hpast []
          rw [latestWrite?_ticks, hfirst] at hwrite
          cases hwrite
          rw [hkept]
          rfl
        · exact hfate

/-- What the latest write of a shared fact promised is so if and only if it was not called off. -/
theorem fateOf_eq_asPromised_iff :
    past.fateOf none key [] = past.asPromised.fateOf none key [] ↔
      past.isCalledOff key = false := by
  refine ⟨fun hsame => Bool.eq_false_iff.2 fun hcalled => ?_,
    fun h => (fateOf_asPromised h []).symm⟩
  obtain ⟨write, hwrite, hdue, hfate⟩ := fateOf_of_isCalledOff hcalled []
  rw [hfate, fateOf_asPromised_of_latestWrite? hwrite] at hsame
  split at hsame
  · cases congrArg Fate.value hsame
  · have hnone : none = write.due := congrArg Fate.due hsame
    rw [← hnone] at hdue
    cases hdue

/-- The latest write of a shared fact tells the fate of the fact: called off, it stays for good. -/
theorem fateOf_of_latestWrite? {write : LatestWrite}
    (h : past.latestWrite? none key [] = some write) :
    past.fateOf none key [] =
      if past.isCalledOff key then ⟨some write.value.toSingle, none⟩
      else if write.isOver then .absent else ⟨some write.value.toSingle, write.due⟩ := by
  split
  · next hcalled =>
    obtain ⟨last, hlast, _, hfate⟩ := fateOf_of_isCalledOff hcalled []
    cases hlast.symm.trans h
    exact hfate
  · next hkept =>
    rw [← fateOf_asPromised (Bool.eq_false_iff.2 hkept), fateOf_asPromised_of_latestWrite? h]

end History

end FactRules
