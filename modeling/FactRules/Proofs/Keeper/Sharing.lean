import FactRules.Proofs.Keeper.Writes

/-!
# Stores with several owners

A store may belong to several owners: to agents that were registered with the same one, or to
nobody in particular and to an agent. What is to be taken back is kept by owner, not by store, so of
each owner's facts the latest write of this owner decides. `Site.sole_writer_decides` says when the
latest write to the store decides, through whichever owner it came: of those who have the store, no
other one wrote the key (`Site.IsSole`). Otherwise it need not (`twoGuards_disagree`).
-/

namespace FactRules

namespace Site

/-- What is pending for a key of a store, through whichever owner. -/
def pendingFor (site : Site) (store : StoreRef) (key : String) : List (Entry Retraction) :=
  site.keeper.retractions.pending.filter fun entry =>
    decide (site.keeper.ownedStore? entry.task.owner = some store ∧ entry.task.key = key)

/-- Of those who have a store, nobody wrote a key of it but the one who wrote it last. -/
def IsSole (site : Site) (log : List Written) (store : StoreRef) (key : String) : Prop :=
  ∀ last ∈ Written.latest? (·.isTo store key) log, ∀ write ∈ log, write.isTo store key = true →
    site.keeper.ownedStore? write.owner = some store → write.owner = last.owner

/-- A tick takes a key back from a store, after its events were applied. -/
def TakesBack (site : Site) (now : Double) (store : StoreRef) (key : String) : Prop :=
  ((site.heed (.operation (.tick now))).bank.get store).lookup? key ≠
    ((site.entered (.operation (.tick now))).facts store).lookup? key

instance (site : Site) (log : List Written) (store : StoreRef) (key : String) :
    Decidable (site.IsSole log store key) :=
  inferInstanceAs (Decidable (∀ last ∈ Written.latest? (·.isTo store key) log, ∀ write ∈ log,
    write.isTo store key = true → site.keeper.ownedStore? write.owner = some store →
      write.owner = last.owner))

instance (site : Site) (now : Double) (store : StoreRef) (key : String) :
    Decidable (site.TakesBack now store key) :=
  inferInstanceAs (Decidable (¬ _ = _))

variable {site : Site} {log : List Written}

/-- Where nobody else wrote the key, the latest write of one who has the store is the latest write
to the store. -/
theorem IsSole.latest?_isTo {store : StoreRef} {key : String} (h : site.IsSole log store key)
    {owner : Option AgentId} (hstore : site.keeper.ownedStore? owner = some store)
    {write : Written} (hlatest : Written.latest? (·.retraction = ⟨key, owner⟩) log = some write)
    (hwrite : write.store = store) : Written.latest? (·.isTo store key) log = some write := by
  obtain ⟨hmem, hretraction⟩ := Written.mem_of_latest? hlatest
  have hfact := of_decide_eq_true hretraction
  have howner : write.owner = owner := congrArg Retraction.owner hfact
  have hto : write.isTo store key = true :=
    decide_eq_true ⟨hwrite, congrArg Retraction.key hfact⟩
  obtain ⟨last, hlast⟩ := Written.exists_latest? (p := (·.isTo store key)) hmem hto
  have hsame := h last hlast write hmem hto (howner ▸ hstore)
  have hlastTo := of_decide_eq_true (Written.mem_of_latest? hlast).2
  have hlastFact : last.retraction = ⟨key, owner⟩ :=
    congrArg₂ Retraction.mk hlastTo.2 (hsame.symm.trans howner)
  rw [hlast, Written.latest?_unique hlast hlatest (decide_eq_true hlastFact) hto]

/-- What is pending for a key of a store was scheduled by its owner's latest write to the key. -/
theorem latest?_of_mem_pendingFor (hsteady : site.Steady) (htraced : ∀ owner, site.Traced log owner)
    {store : StoreRef} {key : String} {entry : Entry Retraction}
    (hentry : entry ∈ site.pendingFor store key) :
    ∃ write, Written.latest? (·.retraction = entry.task) log = some write ∧
      write.store = store ∧ write.due = some entry.time := by
  obtain ⟨hpending, hfor⟩ := List.mem_filter.1 hentry
  obtain ⟨hstore, rfl⟩ := of_decide_eq_true hfor
  obtain ⟨write, hlatest, hdue, howned⟩ :=
    htraced entry.task.owner entry.task.key _ (hsteady.sound.dueTime?_of_mem_pending hpending)
  exact ⟨write, hlatest, Option.some.inj (howned.symm.trans hstore), hdue⟩

/-- Where nobody else wrote the key, it is to be taken back at most once. -/
theorem IsSole.pendingFor_length {store : StoreRef} {key : String} (h : site.IsSole log store key)
    (hsteady : site.Steady) (htraced : ∀ owner, site.Traced log owner) :
    (site.pendingFor store key).length ≤ 1 := by
  have hnodup : ((site.pendingFor store key).map (·.task)).Nodup :=
    hsteady.sound.pending.1.sublist (List.filter_sublist.map _)
  have hlatest : ∀ entry ∈ site.pendingFor store key, ∃ write,
      Written.latest? (·.isTo store key) log = some write ∧ entry.task = write.retraction := by
    intro entry hentry
    obtain ⟨write, hlatest, hwrite, _⟩ := latest?_of_mem_pendingFor hsteady htraced hentry
    obtain ⟨hstore, rfl⟩ := of_decide_eq_true (List.mem_filter.1 hentry).2
    exact ⟨write, h.latest?_isTo hstore hlatest hwrite,
      (of_decide_eq_true (Written.mem_of_latest? hlatest).2).symm⟩
  -- Two of them would be for the one latest write, but no task is scheduled twice.
  match hpending : site.pendingFor store key with
  | [] | [_] => simp
  | first :: second :: rest =>
    rw [hpending] at hnodup hlatest
    obtain ⟨write, hwrite, hfirst⟩ := hlatest first (List.mem_cons_self ..)
    obtain ⟨other, hother, hsecond⟩ := hlatest second (by simp)
    cases hwrite.symm.trans hother
    simp [hfirst, hsecond] at hnodup

/-- Where nobody else wrote the key, a tick takes it back only if the latest write says so. -/
theorem IsSole.not_takesBack {now : Double} {store : StoreRef} {key : String}
    (h : site.IsSole (log ++ site.written (.operation (.tick now))) store key)
    (hsteady : site.Steady) (htraced : ∀ owner, site.Traced log owner)
    (hlate : ((Written.latest? (·.isTo store key)
      (log ++ site.written (.operation (.tick now)))).bind (·.due)).any (·.le now) = false) :
    ¬ site.TakesBack now store key := by
  obtain ⟨due, hyields⟩ := hsteady.yields (.operation (.tick now))
  refine fun htaken => htaken ?_
  rw [hyields.facts, Ledger.takeBack, FactStore.lookup?_removeWhere, if_neg]
  intro hany
  obtain ⟨retraction, hmem, hfor⟩ := List.any_eq_true.1 hany
  obtain ⟨hstore, rfl⟩ := of_decide_eq_true hfor
  obtain ⟨time, hnow, due, hdue, hle⟩ := hyields.isDue retraction hmem
  cases hnow
  obtain ⟨write, hlatest, hwriteDue, howned⟩ := (htraced retraction.owner).entered hdue
  have hlast := h.latest?_isTo hstore hlatest (Option.some.inj (howned.symm.trans hstore))
  rw [hlast, Option.bind_some, hwriteDue, Option.any_some, hle] at hlate
  cases hlate

/-- After any requests: each fact that is pending for a key of a store is the latest one its owner
wrote to the key. If of those who have the store nobody else wrote the key, then at most one is
pending, and no tick takes the key back once the latest write to it, through whichever owner, has no
time to live or one that is not over. -/
theorem sole_writer_decides (shared : StoreRef) (dice : Dice) (bank : Bank)
    (requests : List Request) (store : StoreRef) (key : String) :
    let site := (start shared dice bank).heedAll requests
    let log := (start shared dice bank).writtenAll requests
    (∀ entry ∈ site.pendingFor store key, ∃ write,
        Written.latest? (·.retraction = entry.task) log = some write ∧ write.store = store ∧
          write.due = some entry.time) ∧
      (site.IsSole log store key → (site.pendingFor store key).length ≤ 1) ∧
      ∀ now : Double, let written := log ++ site.written (.operation (.tick now))
        site.IsSole written store key →
          ((Written.latest? (·.isTo store key) written).bind (·.due)).any (·.le now) = false →
            ¬ site.TakesBack now store key := by
  intro site log
  have hbegun := Steady.ofShared shared dice bank
  have hsteady : site.Steady := (hbegun.heedAll requests).1
  have htraced : ∀ owner, site.Traced log owner := fun owner =>
    (Traced.start shared dice bank owner).heedAll hbegun requests
  exact ⟨fun entry hentry => latest?_of_mem_pendingFor hsteady htraced hentry,
    fun hsole => hsole.pendingFor_length hsteady htraced,
    fun now hsole hlate => hsole.not_takesBack hsteady htraced hlate⟩

end Site

/-- Two guards have one store. Each of them lights the lamp in it, for two units of time and for
five. -/
def twoGuards : List Request :=
  let lamp (guard : String) (seconds : Nat) : Event :=
    ⟨[.addFact .agent "lamp" (.ofInt 1) (some (.ofRank false seconds))], some (.name guard)⟩
  [.operation (.register (some (.name "first")) (some ⟨1⟩)),
    .operation (.register (some (.name "second")) (some ⟨1⟩)),
    .operation (.triggerImmediate (lamp "first" 2)),
    .operation (.triggerImmediate (lamp "second" 5))]

/-- As long as only the first of them has written, the latest write decides. -/
theorem oneGuard_decides :
    let begun := Site.start ⟨0⟩ (.ofPicks []) ⟨[∅, ∅]⟩
    let site := begun.heedAll (twoGuards.take 3)
    site.IsSole (begun.writtenAll (twoGuards.take 3)) ⟨1⟩ "lamp" ∧
      (site.pendingFor ⟨1⟩ "lamp").length ≤ 1 ∧ ¬ site.TakesBack (.ofRank false 1) ⟨1⟩ "lamp" ∧
      site.TakesBack (.ofRank false 2) ⟨1⟩ "lamp" := by
  obtain ⟨_, honce, htick⟩ := Site.sole_writer_decides ⟨0⟩ (.ofPicks []) ⟨[∅, ∅]⟩
    (twoGuards.take 3) ⟨1⟩ "lamp"
  have hsole : ((Site.start ⟨0⟩ (.ofPicks []) ⟨[∅, ∅]⟩).heedAll (twoGuards.take 3)).IsSole
      ((Site.start ⟨0⟩ (.ofPicks []) ⟨[∅, ∅]⟩).writtenAll (twoGuards.take 3)) ⟨1⟩ "lamp" := by
    decide +kernel
  exact ⟨hsole, honce hsole, htick _ (by decide +kernel) (by decide +kernel), by decide +kernel⟩

/-- Then the lamp is to be taken back twice, and a tick takes it back at two, though the latest
write lasts to five. -/
theorem twoGuards_disagree :
    let begun := Site.start ⟨0⟩ (.ofPicks []) ⟨[∅, ∅]⟩
    let site := begun.heedAll twoGuards
    (site.pendingFor ⟨1⟩ "lamp").length = 2 ∧
      (Written.latest? (·.isTo ⟨1⟩ "lamp") (begun.writtenAll twoGuards)).bind (·.due) =
        some (.ofRank false 5) ∧
      site.written (.operation (.tick (.ofRank false 2))) = [] ∧
      ((site.bank.get ⟨1⟩).lookup? "lamp").isSome ∧
      ((site.heed (.operation (.tick (.ofRank false 2)))).bank.get ⟨1⟩).lookup? "lamp" = none ∧
      site.TakesBack (.ofRank false 2) ⟨1⟩ "lamp" := by
  decide +kernel

end FactRules
