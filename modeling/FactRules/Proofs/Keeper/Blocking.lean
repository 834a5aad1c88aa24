import FactRules.Proofs.Keeper.SharedFate
import FactRules.Proofs.Query.MostSpecific
import FactRules.Reading.Criterion

/-!
# Rules that block themselves

A rule with the criterion `KEY !` whose response writes the shared fact `KEY` blocks itself: once
its actions are applied it does not match before the fact is taken back, and never if the fact is to
stay. `Site.blocked_until_due` says so of whole runs. Whether rules with the criterion can match is
told by the latest write of the fact and the ticks since then (`History.latestWrite?`), whatever the
query, the rules and the agents' stores are. The one exception are facts that are not taken back
when they are due, for unregistering nobody called it off (`History.isCalledOff`): then the rules
are blocked for good, as `recalledAlarm_blocks` shows.
-/

namespace FactRules

namespace History

/-- The latest write of a fact is one of the writes. -/
theorem WritesOne.latestWrite? {past : History} (h : past.WritesOne) {owner : Option AgentId}
    {key : String} {ticks : List Double} {write : LatestWrite}
    (hwrite : past.latestWrite? owner key ticks = some write) : write.value = .ofInt 1 := by
  induction past generalizing ticks with
  | nil => cases hwrite
  | cons happening past ih =>
    have hpast : WritesOne past :=
      fun owner key value due hmem => h owner key value due (List.mem_cons_of_mem _ hmem)
    cases happening with
    | ticked time => exact ih hpast hwrite
    | wrote other k value due =>
      rw [History.latestWrite?] at hwrite
      split at hwrite
      · cases hwrite
        exact h _ _ _ _ (List.mem_cons_self ..)
      · exact ih hpast hwrite
    | began | registered | unregistered =>
      rw [History.latestWrite?] at hwrite
      split at hwrite
      · cases hwrite
      · exact ih hpast hwrite

end History

/-! ## The criterion that a fact is zero -/

namespace Criterion

/-- A key and an exclamation mark ask for zero. -/
theorem ofText_zero {text : List Char} {key : String} (h : Text.words text = [key.toList, ['!']]) :
    ofText text = .ok ⟨key, .zero, .zero⟩ := by
  simp [ofText, h]

/-- The first store of a chain decides, and one is not zero. -/
theorem zero_not_holds {key : String} {store : FactStore} {others : Chain}
    (h : store.lookup? key = some (Double.toSingle (.ofInt 1))) :
    (⟨key, .zero, .zero⟩ : Criterion).holds (store :: others) = false := by
  have hget : Chain.get (store :: others) key = Double.toSingle (.ofInt 1) := by
    simp [Chain.get, Chain.lookup?, h]
  have hone : (Single.toDouble (Double.toSingle (.ofInt 1))).le .zero = false := by
    decide +kernel
  rw [holds, hget, accepts, hone, Bool.and_false]

/-- What no store of a chain has counts as zero. -/
theorem zero_holds {key : String} {chain : Chain} (h : chain.lookup? key = none) :
    (⟨key, .zero, .zero⟩ : Criterion).holds chain = true := by
  have hzero : (Binary.zero.le (Single.toDouble .zero) && (Single.toDouble .zero).le .zero) =
      true := by decide +kernel
  rw [holds, Chain.get, h]
  exact hzero

end Criterion

namespace Query

variable {query : Query} {rules : RuleSet} {bank : Bank}

/-- A rule with a criterion that does not hold does not match. -/
theorem not_mem_predicates {rule : Rule} (hrule : rule ∈ query.matching rules bank)
    {criterion : Criterion} (h : criterion.holds (query.chain bank) = false) :
    criterion ∉ rule.criteria.predicates := by
  intro hmem
  have hholds := List.all_eq_true.1 (RuleSet.holds_of_mem_matching hrule) criterion hmem
  exact Bool.false_ne_true (h.symm.trans hholds)

/-- A response is that of a rule that matches. -/
theorem mem_matching_of_run {dice : Dice} {response : Response}
    (h : (query.run rules bank dice).response = some response) :
    ∃ rule ∈ query.matching rules bank, rule.response = response := by
  cases hmatching : query.matching rules bank with
  | nil =>
    rw [(run_of_matching_nil hmatching dice).1] at h
    cases h
  | cons first others =>
    rw [(run_of_matching hmatching dice (Nat.zero_lt_succ _)).1] at h
    exact ⟨_, List.getElem_mem .., Option.some.inj h⟩

end Query

/-! ## Blocking -/

namespace Site

variable {site asked : Site} {chronicle earlier : Chronicle} {key : String} {write : LatestWrite}

/-- Every query of a keeper looks into the shared store first. -/
theorem ask_stores {keeper : Keeper} {concept : Concept} {agent : Option AgentId}
    {extra : List (String × Double)} {query : Query}
    (h : keeper.ask concept agent extra = .ok query) :
    ∃ others, query.stores = keeper.shared :: others := by
  cases agent with
  | none =>
    rw [Keeper.ask_none] at h
    cases h
    exact ⟨[], rfl⟩
  | some id =>
    rw [Keeper.ask_some] at h
    split at h
    · next store _ =>
      cases h
      exact ⟨[store], rfl⟩
    · cases h

namespace Shares

/-- Once the latest write of a fact is over, the shared store has nothing under its key, unless it
was called off to take the fact back. Otherwise it has the value one. -/
theorem lookup?_of_latestWrite? (h : site.Shares chronicle)
    (hwrite : chronicle.past.latestWrite? none key [] = some write) :
    (site.bank.get site.keeper.shared).lookup? key =
      if write.isOver = true ∧ chronicle.past.isCalledOff key = false then none
      else some (Double.toSingle (.ofInt 1)) := by
  have hfate := (h.tells.told key).symm.trans (History.fateOf_of_latestWrite? hwrite)
  rw [h.tells.ones.latestWrite? hwrite] at hfate
  have hvalue := congrArg Fate.value hfate
  refine hvalue.trans ?_
  cases chronicle.past.isCalledOff key <;> cases write.isOver <;> rfl

/-- While the latest write of a fact is not over, and for good if it was called off to take the fact
back, the criterion that the fact is zero does not hold on a query that looks into the shared store
first. -/
theorem blocks (h : site.Shares chronicle)
    (hwrite : chronicle.past.latestWrite? none key [] = some write)
    (hstays : write.isOver = false ∨ chronicle.past.isCalledOff key = true)
    {query : Query} (hstores : ∃ others, query.stores = site.keeper.shared :: others) :
    (⟨key, .zero, .zero⟩ : Criterion).holds (query.chain site.bank) = false := by
  have hlookup := h.lookup?_of_latestWrite? hwrite
  obtain ⟨others, hothers⟩ := hstores
  rw [if_neg fun hgone => by rcases hstays with hstays | hstays <;> simp_all] at hlookup
  rw [Query.chain, hothers]
  exact Criterion.zero_not_holds hlookup

/-- Once it is over and not called off, the criterion holds on a query whose other stores and own
facts do not have the fact. -/
theorem frees (h : site.Shares chronicle)
    (hwrite : chronicle.past.latestWrite? none key [] = some write) (hover : write.isOver = true)
    (hkept : chronicle.past.isCalledOff key = false) {query : Query}
    (hothers : ∀ store ∈ query.stores, store ≠ site.keeper.shared →
      (site.bank.get store).lookup? key = none)
    (hextra : query.extra.lookup? key = none) :
    (⟨key, .zero, .zero⟩ : Criterion).holds (query.chain site.bank) = true := by
  have hlookup := h.lookup?_of_latestWrite? hwrite
  rw [if_pos ⟨hover, hkept⟩] at hlookup
  refine Criterion.zero_holds ?_
  rw [Query.chain, Chain.lookup?_append, Chain.lookup?, List.findSome?_eq_none_iff.2, Chain.lookup?]
  · simp [hextra]
  · intro facts hfacts
    obtain ⟨store, hstore, rfl⟩ := List.mem_map.1 hfacts
    by_cases hshared : store = site.keeper.shared
    · rw [hshared]
      exact hlookup
    · exact hothers store hstore hshared

end Shares

/-- A query is asked before some requests and looked at after them. While the latest write of a
shared fact is not over, no rule with the criterion that the fact is zero matches it, whatever the
rules are, and no such rule is responded with. Once the write is over, the criterion holds on the
query again, unless another store of the query or a fact of its own has the key. If it was called
off by unregistering nobody that the fact is taken back, the rules do not match any more, whether
the write is over or not. -/
theorem blocked_until_due (shared : StoreRef) (dice : Dice) (bank : Bank)
    (before after : List Request) (key : String) (text : List Char)
    (hshared : shared.index < bank.stores.length)
    (hgrants : (start shared dice bank).GrantsAll (before ++ after))
    (htext : Text.words text = [key.toList, ['!']]) :
    let asked := (start shared dice bank).heedAll before
    let site := asked.heedAll after
    let past := ((Chronicle.start (bank.get shared)).noteAll (start shared dice bank)
      (before ++ after)).past
    ∃ criterion, Criterion.ofText text = .ok criterion ∧
      ∀ write, past.latestWrite? none key [] = some write →
        (write.isOver = false ∨ past.isCalledOff key = true →
          (∀ concept agent extra query, asked.keeper.ask concept agent extra = .ok query →
            ∀ rules, ∀ rule ∈ query.matching rules site.bank,
              criterion ∉ rule.criteria.predicates) ∧
          ∀ rules concept agent extra result response,
            site.respond rules concept agent extra = .ok result →
            result.2.response = some response →
            ∃ rule ∈ rules.rules, rule.response = response ∧
              criterion ∉ rule.criteria.predicates) ∧
        (write.isOver = true → past.isCalledOff key = false →
          ∀ concept agent extra query, asked.keeper.ask concept agent extra = .ok query →
            (∀ store ∈ query.stores, store ≠ shared →
              (site.bank.get store).lookup? key = none) →
            query.extra.lookup? key = none → criterion.holds (query.chain site.bank) = true) := by
  intro asked site past
  have hbegun : (start shared dice bank).Steady := .ofShared shared dice bank
  obtain ⟨hasked, hbefore⟩ := hbegun.heedAll before
  have hafter : site.keeper.shared = asked.keeper.shared := (hasked.heedAll after).2
  have hsame : site.keeper.shared = shared := hafter.trans hbefore
  have hshares := (Shares.start hshared dice).heedAll hgrants
  rw [heedAll_append] at hshares
  refine ⟨_, Criterion.ofText_zero htext, fun write hwrite => ⟨fun hstays => ⟨?_, ?_⟩, ?_⟩⟩
  · intro concept agent extra query hask rules rule hrule
    have hstores := ask_stores hask
    rw [← hafter] at hstores
    exact Query.not_mem_predicates hrule (hshares.blocks hwrite hstays hstores)
  · intro rules concept agent extra result response hrespond hresponse
    cases hask : site.keeper.ask concept agent extra with
    | error error =>
      rw [respond_error hask] at hrespond
      cases hrespond
    | ok query =>
      obtain ⟨reply, hanswered, hreply⟩ := respond_ok rules hask
      rw [hanswered] at hrespond
      cases hrespond
      obtain ⟨rule, hrule, hgiven⟩ := Query.mem_matching_of_run (hreply.symm.trans hresponse)
      exact ⟨rule, RuleSet.mem_of_mem_matching hrule, hgiven,
        Query.not_mem_predicates hrule (hshares.blocks hwrite hstays (ask_stores hask))⟩
  · intro hover hkept concept agent extra query _ hothers hextra
    rw [← hsame] at hothers
    exact hshares.frees hwrite hover hkept hothers hextra

end Site

/-- An alarm for good is read from a text. -/
theorem isRead_alarm_forGood : ∀ action ∈ (alarm none).actions, action.IsRead := by
  intro action hmem
  obtain rfl := List.mem_singleton.1 hmem
  exact ⟨"AddGlobalFact alarm".toList, toOption_eq_some_iff.1 (by decide +kernel)⟩

/-- So is an alarm for no time. -/
theorem isRead_alarm_forNoTime : ∀ action ∈ (alarm (some .zero)).actions, action.IsRead := by
  intro action hmem
  obtain rfl := List.mem_singleton.1 hmem
  exact ⟨"AddGlobalFact alarm 0".toList, toOption_eq_some_iff.1 (by decide +kernel)⟩

/-- An alarm is raised for good. -/
def raised : List Request :=
  [.operation (.trigger (alarm none)), .operation (.tick (.ofRank false 1))]

/-- It is raised for no time, and time stands still. -/
def cleared : List Request :=
  [.operation (.triggerImmediate (alarm (some .zero))), .operation (.tick (.ofRank false 1))]

/-- A rule that asks for no alarm is blocked for the guard once the alarm is raised for good. Its
criterion holds again for everyone when the alarm was raised for no time and a tick came. -/
theorem alarm_blocks :
    let begun := Site.start ⟨0⟩ (.ofPicks []) watchBank
    let arrival : List Request := [.operation (.register (some (.name "guard")) (some ⟨1⟩))]
    let guarding : Query := ⟨.thinkIdle, [⟨0⟩, ⟨1⟩], ∅⟩
    begun.GrantsAll (arrival ++ raised) ∧ begun.GrantsAll (arrival ++ (raised ++ cleared)) ∧
      ∃ criterion, Criterion.ofText "alarm !".toList = .ok criterion ∧
        (∀ rules, ∀ rule ∈ guarding.matching rules ((begun.heedAll arrival).heedAll raised).bank,
          criterion ∉ rule.criteria.predicates) ∧
        criterion.holds (Query.chain ⟨.thinkIdle, [⟨0⟩], ∅⟩
          ((begun.heedAll arrival).heedAll (raised ++ cleared)).bank) = true := by
  intro begun arrival guarding
  have hshared : (⟨0⟩ : StoreRef).index < watchBank.stores.length := by decide
  have htext : Text.words "alarm !".toList = ["alarm".toList, ['!']] := by decide
  have hfinite : (Binary.ofRank false 1 : Double).isFinite = true := by decide
  have hfree : begun.keeper.agents.get? (some (.name "guard")) = none →
      (⟨1⟩ : StoreRef) ≠ begun.keeper.shared := by decide
  have hraised : begun.GrantsAll (arrival ++ raised) :=
    ⟨hfree, isRead_alarm_forGood, hfinite, trivial⟩
  have hcleared : begun.GrantsAll (arrival ++ (raised ++ cleared)) :=
    ⟨hfree, isRead_alarm_forGood, hfinite, isRead_alarm_forNoTime, hfinite, trivial⟩
  have hguard : (begun.heedAll arrival).keeper.ask .thinkIdle (some (.name "guard")) [] =
      .ok guarding := by rfl
  obtain ⟨criterion, hread, hblocked⟩ := Site.blocked_until_due ⟨0⟩ (.ofPicks []) watchBank arrival
    raised "alarm" "alarm !".toList hshared hraised htext
  obtain ⟨other, hother, hfreed⟩ := Site.blocked_until_due ⟨0⟩ (.ofPicks []) watchBank arrival
    (raised ++ cleared) "alarm" "alarm !".toList hshared hcleared htext
  cases hread.symm.trans hother
  refine ⟨hraised, hcleared, criterion, hread, ?_, ?_⟩
  · have hwrite := (hblocked ⟨.ofInt 1, none, [.ofRank false 1]⟩ (by rfl)).1 (.inl (by rfl))
    exact hwrite.1 _ _ _ guarding hguard
  · have hover := (hfreed ⟨.ofInt 1, some (.ofRank false 1), [.ofRank false 1]⟩ (by rfl)).2
    refine hover (by rfl) (by rfl) _ none [] _ (Keeper.ask_none ..) (fun store hmem hne => ?_) rfl
    exact absurd (List.mem_singleton.1 hmem) hne

/-- An alarm is raised for no time. Nobody comes and goes before the tick that would end it. -/
def clearedInVain : List Request :=
  [.operation (.triggerImmediate (alarm (some .zero))), .operation (.register none none),
    .operation (.unregister none), .operation (.tick (.ofRank false 1))]

/-- There was no alarm before and its time is over, but a rule that asks for no alarm is still
blocked. -/
theorem recalledAlarm_blocks :
    let begun := Site.start ⟨0⟩ (.ofPicks []) watchBank
    let past := ((Chronicle.start (watchBank.get ⟨0⟩)).noteAll begun clearedInVain).past
    begun.GrantsAll clearedInVain ∧ (begun.bank.get ⟨0⟩).lookup? "alarm" = none ∧
      (past.latestWrite? none "alarm" []).map LatestWrite.isOver = some true ∧
      ∃ criterion, Criterion.ofText "alarm !".toList = .ok criterion ∧
        criterion.holds (Query.chain ⟨.thinkIdle, [⟨0⟩], ∅⟩ (begun.heedAll clearedInVain).bank) =
          false := by
  intro begun past
  have htext : Text.words "alarm !".toList = ["alarm".toList, ['!']] := by decide
  have hfinite : (Binary.ofRank false 1 : Double).isFinite = true := by decide
  have hstays : ((begun.heedAll clearedInVain).bank.get ⟨0⟩).lookup? "alarm" =
      some (Double.toSingle (.ofInt 1)) := by decide +kernel
  exact ⟨⟨isRead_alarm_forNoTime, trivial, trivial, hfinite, trivial⟩, by rfl, by rfl, _,
    Criterion.ofText_zero htext, Criterion.zero_not_holds hstays⟩

end FactRules
