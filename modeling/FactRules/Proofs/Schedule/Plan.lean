import FactRules.Proofs.Schedule.HeapOrder
import FactRules.Schedule.Basic
import Mathlib.Data.List.Nodup
import Mathlib.Data.Prod.Lex

/-!
# The plan behind a schedule

A heap may hold many entries that were cancelled, several of them for one task. What a schedule
stands for is its *plan*: the entries of the scheduled tasks, in the order in which they were
pushed. `Schedule.Plans` relates the two: each task of the live map has exactly one entry of the
heap, the one with its number, and that entry is in the plan.

Each operation is described by what it does to the plan: pushing adds an entry at the end
(`Plans.push`), cancelling removes the task's entry (`Plans.cancel`), and an entry that leaves the
heap leaves the plan if it is live (`Plans.take`) and otherwise is not in it (`Plans.drop`). None of
this needs the times to be ordered. Where they are (`Schedule.Timely`), the entries come out of the
heap by time and number, and `Plans.popDue` and `Plans.nextTime` say what that means for the plan.
-/

namespace FactRules

variable {τ : Type}

/-! ## The order of entries -/

/-- What entries are ordered by: the time, and then the number. -/
def Entry.key (entry : Entry τ) : Int ×ₗ Nat :=
  toLex (entry.time.ordinal?.getD 0, entry.number)

/-- An entry has a place in the order if its time is a number. -/
def Entry.key? (entry : Entry τ) : Option (Int ×ₗ Nat) :=
  if entry.time.isNan then none else some entry.key

/-- An entry has no key if its time is no number. -/
theorem Entry.key?_eq_none_iff {entry : Entry τ} : entry.key? = none ↔ entry.time.isNan = true := by
  simp [Entry.key?]

/-- An entry with a number as its time has a key. -/
theorem Entry.key?_of_timed {entry : Entry τ} (h : entry.time.isNan = false) :
    entry.key? = some entry.key := by
  simp [Entry.key?, h]

/-- Entries with numbers as times are compared by their keys. -/
theorem Entry.before_iff {a b : Entry τ} (ha : a.time.isNan = false) (hb : b.time.isNan = false) :
    a.before b = true ↔ a.key < b.key := by
  obtain ⟨x, hx⟩ := Binary.isNan_eq_false_iff.1 ha
  obtain ⟨y, hy⟩ := Binary.isNan_eq_false_iff.1 hb
  rw [Entry.key, Entry.key, Prod.Lex.toLex_lt_toLex]
  by_cases hxy : x = y
  · subst hxy
    simp [Entry.before, Binary.same, hx, hy]
  · simp [Entry.before, Binary.same, Binary.lt, hx, hy, hxy]

/-- Entries that come before others have numbers as times, and so have the others. -/
theorem Entry.timed_of_before {a b : Entry τ} (h : a.before b = true) :
    a.time.isNan = false ∧ b.time.isNan = false := by
  have hordinals : ∃ x y, a.time.ordinal? = some x ∧ b.time.ordinal? = some y := by
    rw [Entry.before] at h
    split at h
    · next hsame =>
      obtain ⟨x, hx, hy⟩ := Binary.same_iff.1 hsame
      exact ⟨x, x, hx, hy⟩
    · obtain ⟨x, y, hx, hy, _⟩ := Binary.lt_iff.1 h
      exact ⟨x, y, hx, hy⟩
  obtain ⟨x, y, hx, hy⟩ := hordinals
  exact ⟨Binary.isNan_eq_false_iff.2 ⟨x, hx⟩, Binary.isNan_eq_false_iff.2 ⟨y, hy⟩⟩

/-- Entries are compared by their keys, as far as they have a place in the order. -/
theorem Entry.compares : Heap.Compares (Entry.before (τ := τ)) Entry.key? := by
  intro a b
  constructor
  · intro h
    obtain ⟨ha, hb⟩ := Entry.timed_of_before h
    exact ⟨_, Entry.key?_of_timed ha, _, Entry.key?_of_timed hb, (Entry.before_iff ha hb).1 h⟩
  · rintro ⟨x, hx, y, hy, hlt⟩
    have ha : a.time.isNan = false := Bool.eq_false_iff.2 fun hnan => by
      rw [Entry.key?_eq_none_iff.2 hnan] at hx
      cases hx
    have hb : b.time.isNan = false := Bool.eq_false_iff.2 fun hnan => by
      rw [Entry.key?_eq_none_iff.2 hnan] at hy
      cases hy
    rw [Entry.key?_of_timed ha] at hx
    rw [Entry.key?_of_timed hb] at hy
    cases hx
    cases hy
    exact (Entry.before_iff ha hb).2 hlt

/-- An entry that is not later than another one in the order is not later in time. -/
theorem Entry.time_le_of_key_le {a b : Entry τ} (ha : a.time.isNan = false)
    (hb : b.time.isNan = false) (h : a.key ≤ b.key) : a.time.le b.time = true := by
  obtain ⟨x, hx⟩ := Binary.isNan_eq_false_iff.1 ha
  obtain ⟨y, hy⟩ := Binary.isNan_eq_false_iff.1 hb
  rw [Entry.key, Entry.key, Prod.Lex.toLex_le_toLex, hx, hy] at h
  refine Binary.le_iff.2 ⟨x, y, hx, hy, ?_⟩
  rcases h with h | h
  · exact Int.le_of_lt h
  · exact Int.le_of_eq h.1

namespace Schedule

variable {schedule : Schedule τ} {planned : List (Entry τ)}

/-- `planned` are the entries of the scheduled tasks, in the order in which they were pushed. -/
structure Plans (schedule : Schedule τ) (planned : List (Entry τ)) : Prop where
  live : schedule.live.entries = planned.map fun entry => (entry.task, entry.number)
  inHeap : ∀ entry ∈ planned, entry ∈ schedule.heap.toList
  numbered : planned.Pairwise fun a b => a.number < b.number
  distinct : (schedule.heap.toList.map Entry.number).Nodup
  below : ∀ entry ∈ schedule.heap.toList, entry.number < schedule.next

/-- All times in the heap are numbers, and the heap is in order. -/
structure Timely (schedule : Schedule τ) : Prop where
  timed : ∀ entry ∈ schedule.heap.toList, entry.time.isNan = false
  heap : Heap.IsHeap Entry.key? schedule.heap

/-- The entries of the heap that are live. -/
def pending [DecidableEq τ] (schedule : Schedule τ) : List (Entry τ) :=
  schedule.heap.toList.filter schedule.isLive

namespace Plans

/-- Nothing is planned at first. -/
theorem empty : Plans (∅ : Schedule τ) [] where
  live := rfl
  inHeap := by simp
  numbered := .nil
  distinct := .nil
  below := by simp [EmptyCollection.emptyCollection, Schedule.empty]

/-! ## Who is scheduled -/

/-- The tasks of a schedule are those of its plan, in the order in which they were pushed. -/
theorem tasks_eq (h : Plans schedule planned) : schedule.tasks = planned.map (·.task) := by
  rw [tasks, OrderedMap.keys, h.live, List.map_map]
  rfl

/-- No task is planned twice. -/
theorem nodup_tasks (h : Plans schedule planned) : (planned.map (·.task)).Nodup := by
  rw [← h.tasks_eq]
  exact schedule.live.nodup_keys

/-- There are as many tasks as planned entries. -/
theorem size_eq (h : Plans schedule planned) : schedule.size = planned.length := by
  rw [Schedule.size, OrderedMap.size, h.live, List.length_map]

/-- A task has one entry in the plan. -/
theorem eq_of_task (h : Plans schedule planned) {a b : Entry τ} (ha : a ∈ planned)
    (hb : b ∈ planned) (htask : a.task = b.task) : a = b :=
  List.inj_on_of_nodup_map h.nodup_tasks ha hb htask

/-- A number has one entry in the heap. -/
theorem eq_of_number (h : Plans schedule planned) {a b : Entry τ}
    (ha : a ∈ schedule.heap.toList) (hb : b ∈ schedule.heap.toList)
    (hnumber : a.number = b.number) : a = b :=
  List.inj_on_of_nodup_map h.distinct ha hb hnumber

variable [DecidableEq τ]

/-- A task is scheduled if it is planned at some time. -/
theorem isScheduled_iff (h : Plans schedule planned) {task : τ} :
    schedule.isScheduled task = true ↔ ∃ entry ∈ planned, entry.task = task := by
  rw [isScheduled, ← OrderedMap.mem_keys_iff, ← tasks, h.tasks_eq, List.mem_map]

/-- The live entries of the heap are those of the plan. -/
theorem isLive_iff (h : Plans schedule planned) {entry : Entry τ}
    (hentry : entry ∈ schedule.heap.toList) :
    schedule.isLive entry = true ↔ entry ∈ planned := by
  rw [isLive, beq_iff_eq, OrderedMap.get?_eq_some_iff, h.live, List.mem_map]
  constructor
  · rintro ⟨other, hother, heq⟩
    have hnumber : other.number = entry.number := congrArg Prod.snd heq
    exact h.eq_of_number (h.inHeap _ hother) hentry hnumber ▸ hother
  · intro hmem
    exact ⟨entry, hmem, rfl⟩

/-- The entries that are pending are those of the plan. -/
theorem pending_perm (h : Plans schedule planned) : schedule.pending.Perm planned := by
  have hheap : schedule.heap.toList.Nodup := List.Nodup.of_map _ h.distinct
  have hplanned : planned.Nodup := List.Nodup.of_map _ h.nodup_tasks
  refine (List.perm_ext_iff_of_nodup (hheap.filter _) hplanned).2 fun entry => ?_
  rw [List.mem_filter]
  constructor
  · rintro ⟨hmem, hlive⟩
    exact (h.isLive_iff hmem).1 hlive
  · intro hmem
    exact ⟨h.inHeap entry hmem, (h.isLive_iff (h.inHeap entry hmem)).2 hmem⟩

/-! ## What the operations do to the plan -/

/-- A refused push is one of a scheduled task. -/
theorem push_error (h : Plans schedule planned) {task : τ} (time : Double)
    (hscheduled : ∃ entry ∈ planned, entry.task = task) :
    schedule.push time task = .error ⟨task⟩ := by
  rw [Schedule.push, if_pos (h.isScheduled_iff.2 hscheduled)]

/-- A push that is not refused adds its entry at the end of the plan. -/
theorem push (h : Plans schedule planned) {task : τ} (time : Double)
    (hfree : ¬ ∃ entry ∈ planned, entry.task = task) :
    ∃ pushed, schedule.push time task = .ok pushed ∧
      Plans pushed (planned ++ [⟨time, schedule.next, task⟩]) ∧
      (schedule.Timely → time.isNan = false → pushed.Timely) := by
  have hperm := Heap.push_perm Entry.before schedule.heap ⟨time, schedule.next, task⟩
  refine ⟨_, if_neg fun hscheduled => hfree (h.isScheduled_iff.1 hscheduled), ?_, ?_⟩
  · constructor
    · have hnew : task ∉ schedule.live.keys := fun hmem =>
        hfree (h.isScheduled_iff.1 (OrderedMap.mem_keys_iff.1 hmem))
      rw [OrderedMap.entries_insert_of_not_mem hnew, h.live, List.map_append]
      rfl
    · intro entry hentry
      rw [hperm.mem_iff, List.mem_cons]
      rcases List.mem_append.1 hentry with hentry | hentry
      · exact .inr (h.inHeap entry hentry)
      · exact .inl (List.mem_singleton.1 hentry)
    · refine List.pairwise_append.2 ⟨h.numbered, List.pairwise_singleton .., ?_⟩
      intro a ha b hb
      rw [List.mem_singleton.1 hb]
      exact h.below a (h.inHeap a ha)
    · refine (hperm.map _).nodup_iff.2 (List.nodup_cons.2 ⟨fun hmem => ?_, h.distinct⟩)
      obtain ⟨entry, hentry, hnumber⟩ := List.mem_map.1 hmem
      have := h.below entry hentry
      simp only at hnumber
      omega
    · intro entry hentry
      rcases List.mem_cons.1 (hperm.mem_iff.1 hentry) with rfl | hentry
      · exact Nat.lt_succ_self _
      · exact Nat.lt_succ_of_lt (h.below entry hentry)
  · intro ht hnan
    have htimed : ∀ entry ∈ (⟨time, schedule.next, task⟩ : Entry τ) :: schedule.heap.toList,
        entry.time.isNan = false := by
      intro entry hentry
      rcases List.mem_cons.1 hentry with rfl | hentry
      · exact hnan
      · exact ht.timed entry hentry
    exact ⟨fun entry hentry => htimed entry (hperm.mem_iff.1 hentry),
      ht.heap.push Entry.compares _⟩

/-- Cancelling removes the entry of the task. -/
theorem cancel (h : Plans schedule planned) (task : τ) :
    Plans (schedule.cancel task) (planned.filter (·.task ≠ task)) := by
  refine ⟨?_, fun entry hentry => h.inHeap entry (List.mem_filter.1 hentry).1,
    h.numbered.filter _, h.distinct, h.below⟩
  have hentries : (schedule.cancel task).live.entries =
      schedule.live.entries.filter fun entry => !decide (entry.1 = task) := rfl
  rw [hentries, h.live, List.filter_map]
  simp [Function.comp_def]

/-- An entry that leaves the heap without being live is not in the plan. -/
theorem drop (h : Plans schedule planned) {entry : Entry τ} {rest : Array (Entry τ)}
    (hpop : Heap.pop? Entry.before schedule.heap = some (entry, rest))
    (hdead : schedule.isLive entry = false) : Plans { schedule with heap := rest } planned := by
  have hperm := Heap.pop?_perm Entry.before hpop
  have hmem : entry ∈ schedule.heap.toList := hperm.subset (List.mem_cons_self ..)
  have hnot : entry ∉ planned := by
    rw [← h.isLive_iff hmem, hdead]
    exact Bool.false_ne_true
  refine ⟨h.live, fun other hother => ?_, h.numbered, ?_, fun other hother => ?_⟩
  · have := hperm.symm.subset (h.inHeap other hother)
    rcases List.mem_cons.1 this with rfl | hrest
    · exact absurd hother hnot
    · exact hrest
  · exact (List.nodup_cons.1 ((hperm.map Entry.number).nodup_iff.2 h.distinct)).2
  · exact h.below other (hperm.subset (List.mem_cons_of_mem _ hother))

/-- An entry that leaves the heap live leaves the plan with its task. -/
theorem take (h : Plans schedule planned) {entry : Entry τ} {rest : Array (Entry τ)}
    (hpop : Heap.pop? Entry.before schedule.heap = some (entry, rest)) :
    Plans { schedule with heap := rest, live := schedule.live.erase entry.task }
      (planned.filter (·.task ≠ entry.task)) := by
  have hcancel := h.cancel entry.task
  have hpop' : Heap.pop? Entry.before (schedule.cancel entry.task).heap = some (entry, rest) := hpop
  refine hcancel.drop hpop' (Bool.eq_false_iff.2 fun hlive => ?_)
  have hperm := Heap.pop?_perm Entry.before hpop
  have hmem := (hcancel.isLive_iff (hperm.subset (List.mem_cons_self ..))).1 hlive
  simpa using (List.mem_filter.1 hmem).2

/-! ## Entries leaving in order -/

end Plans

/-- Without entries, all times in the heap are numbers. -/
theorem Timely.empty : Timely (∅ : Schedule τ) where
  timed := by simp [EmptyCollection.emptyCollection, Schedule.empty]
  heap := .empty

/-- A schedule stays in order when its root leaves, whatever becomes of its live map. -/
theorem Timely.pop (ht : schedule.Timely) {entry : Entry τ} {rest : Array (Entry τ)}
    (hpop : Heap.pop? Entry.before schedule.heap = some (entry, rest))
    (live : OrderedMap τ Nat) (next : Nat) : Timely ⟨rest, live, next⟩ where
  timed other hother :=
    ht.timed other ((Heap.pop?_perm Entry.before hpop).subset (List.mem_cons_of_mem _ hother))
  heap := ht.heap.pop? Entry.compares hpop

/-- The root is at or before every entry of the heap. -/
theorem Timely.key_le (ht : schedule.Timely) {root entry : Entry τ}
    (hroot : schedule.heap[0]? = some root) (hentry : entry ∈ schedule.heap.toList) :
    root.key ≤ entry.key := by
  have hkeys : ∀ other ∈ schedule.heap, other.key?.isSome := fun other hother => by
    rw [Entry.key?_of_timed (ht.timed other (Array.mem_toList_iff.2 hother))]
    rfl
  have hle := ht.heap.root_notAfter hkeys hroot (Array.mem_toList_iff.1 hentry)
  have hrootMem := Array.mem_toList_iff.2 (Array.mem_of_getElem? hroot)
  exact hle _ (Entry.key?_of_timed (ht.timed root hrootMem)) _
    (Entry.key?_of_timed (ht.timed entry hentry))

/-- The root is at or before every entry of the plan. -/
theorem Timely.root_le (ht : schedule.Timely) (h : Plans schedule planned) {root : Entry τ}
    (hroot : schedule.heap[0]? = some root) : ∀ entry ∈ planned, root.key ≤ entry.key :=
  fun entry hentry => ht.key_le hroot (h.inHeap entry hentry)

namespace Plans

/-- The root of the heap is one of its entries. -/
theorem root_mem {root : Entry τ} (hroot : schedule.heap[0]? = some root) :
    root ∈ schedule.heap.toList :=
  Array.mem_toList_iff.2 (Array.mem_of_getElem? hroot)

/-- Without a root there is nothing to plan. -/
theorem eq_nil (h : Plans schedule planned) (hroot : schedule.heap[0]? = none) : planned = [] := by
  have hempty : schedule.heap.toList = [] := by simpa using hroot
  refine List.eq_nil_iff_forall_not_mem.2 fun entry hentry => ?_
  have := h.inHeap entry hentry
  rw [hempty] at this
  exact absurd this (List.not_mem_nil)

variable [DecidableEq τ]

/-- A planned entry stands apart from the entries of the other tasks. -/
theorem cons_filter_perm (h : Plans schedule planned) {entry : Entry τ} (hentry : entry ∈ planned) :
    (entry :: planned.filter (·.task ≠ entry.task)).Perm planned := by
  have hnodup : planned.Nodup := List.Nodup.of_map _ h.nodup_tasks
  have herase : planned.filter (·.task ≠ entry.task) = planned.erase entry := by
    rw [hnodup.erase_eq_filter]
    refine List.filter_congr fun other hother => ?_
    have : other.task = entry.task ↔ other = entry :=
      ⟨h.eq_of_task hother hentry, fun e => e ▸ rfl⟩
    simp [this, bne, beq_eq_decide]
  rw [herase]
  exact (List.perm_cons_erase hentry).symm

/-- Whatever the times are, what is popped was planned and is due, no task is popped twice, and all
other entries stay planned. -/
theorem popDue_filter (h : Plans schedule planned) (now : Double) :
    Plans (schedule.popDue now).2 (planned.filter (·.task ∉ (schedule.popDue now).1)) ∧
      (schedule.popDue now).1.Nodup ∧
      ∀ task ∈ (schedule.popDue now).1, ∃ entry ∈ planned, entry.task = task ∧
        entry.time.le now = true := by
  fun_induction Schedule.popDue schedule now generalizing planned with
  | case1 schedule hroot => exact ⟨by simpa using h, .nil, nofun⟩
  | case2 schedule root hroot _ hpop => exact ⟨by simpa using h, .nil, nofun⟩
  | case3 schedule root hroot hdue entry rest hpop _ hlive tasks left hrest ih =>
    obtain rfl := Option.some.inj (hroot.symm.trans (Heap.pop?_eq_root Entry.before hpop))
    obtain ⟨hleft, hnodup, htasks⟩ := ih (h.take hpop)
    rw [hrest] at hleft hnodup htasks
    have hperm := Heap.pop?_perm Entry.before hpop
    have hplanned := (h.isLive_iff (hperm.subset (List.mem_cons_self ..))).1 hlive
    refine ⟨?_, List.nodup_cons.2 ⟨fun hmem => ?_, hnodup⟩, fun task htask => ?_⟩
    · rw [List.filter_filter] at hleft
      have hfilter : (fun other : Entry τ =>
          decide (other.task ∉ tasks) && decide (other.task ≠ root.task)) =
          fun other => decide (other.task ∉ root.task :: tasks) := by
        funext other
        simp only [← Bool.decide_and, List.mem_cons, not_or, ne_eq, and_comm]
      rwa [hfilter] at hleft
    · obtain ⟨other, hother, heq, _⟩ := htasks root.task hmem
      simpa [heq] using (List.mem_filter.1 hother).2
    · rcases List.mem_cons.1 htask with rfl | htask
      · exact ⟨root, hplanned, rfl, hdue⟩
      · obtain ⟨other, hother, heq⟩ := htasks task htask
        exact ⟨other, (List.mem_filter.1 hother).1, heq⟩
  | case4 schedule root hroot _ entry rest hpop _ hdead ih =>
    exact ih (h.drop hpop (Bool.eq_false_iff.2 hdead))
  | case5 schedule root hroot _ => exact ⟨by simpa using h, .nil, nofun⟩

/-- What is popped are the tasks of the planned entries that are due, by time and number, and the
entries that are not due stay planned. Each round takes the root: it is not later than any other
entry, so the rounds end when nothing that is planned is due. -/
theorem popDue (h : Plans schedule planned) (ht : schedule.Timely) (now : Double) :
    ∃ due : List (Entry τ), (schedule.popDue now).1 = due.map (·.task) ∧
      due.Perm (planned.filter (·.time.le now)) ∧ due.Pairwise (fun a b => a.key < b.key) ∧
      Plans (schedule.popDue now).2 (planned.filter (!·.time.le now)) ∧
      (schedule.popDue now).2.Timely := by
  fun_induction Schedule.popDue schedule now generalizing planned with
  | case1 schedule hroot =>
    obtain rfl := h.eq_nil hroot
    exact ⟨[], rfl, .refl _, .nil, h, ht⟩
  | case2 schedule root hroot _ hpop =>
    rw [(Heap.pop?_eq_none_iff Entry.before).1 hpop] at hroot
    cases hroot
  | case3 schedule root hroot hdue entry rest hpop _ hlive tasks left hrest ih =>
    obtain rfl := Option.some.inj (hroot.symm.trans (Heap.pop?_eq_root Entry.before hpop))
    have hmem := (h.isLive_iff (root_mem hroot)).1 hlive
    have htake := h.take hpop
    obtain ⟨due, htasks, hperm, hsorted, hplans, htimely⟩ := ih htake (ht.pop hpop _ _)
    rw [hrest] at htasks hplans htimely
    refine ⟨root :: due, by rw [List.map_cons, ← htasks], ?_, ?_, ?_, htimely⟩
    · have := (h.cons_filter_perm hmem).filter (·.time.le now)
      rw [List.filter_cons_of_pos (p := fun entry : Entry τ => entry.time.le now) hdue] at this
      exact (hperm.cons root).trans this
    · refine List.pairwise_cons.2 ⟨fun other hother => ?_, hsorted⟩
      obtain ⟨hother, hne⟩ := List.mem_filter.1 (List.mem_filter.1 (hperm.subset hother)).1
      refine lt_of_le_of_ne (ht.root_le h hroot other hother) fun hkey => ?_
      have hnumber : root.number = other.number :=
        congrArg (fun key : Int ×ₗ Nat => (ofLex key).2) hkey
      have := h.eq_of_number (root_mem hroot) (h.inHeap other hother) hnumber
      simp [this] at hne
    · have : (planned.filter (·.task ≠ root.task)).filter (!·.time.le now) =
          planned.filter (!·.time.le now) := by
        rw [List.filter_filter]
        refine List.filter_congr fun other hother => ?_
        by_cases htask : other.task = root.task
        · obtain rfl := h.eq_of_task hother hmem htask
          simp [hdue]
        · simp [htask]
      rwa [this] at hplans
  | case4 schedule root hroot _ entry rest hpop _ hdead ih =>
    exact ih (h.drop hpop (Bool.eq_false_iff.2 hdead)) (ht.pop hpop _ _)
  | case5 schedule root hroot hlate =>
    have hnone : ∀ entry ∈ planned, ¬ entry.time.le now = true := by
      intro entry hentry hle
      have htime := Entry.time_le_of_key_le (ht.timed _ (root_mem hroot))
        (ht.timed _ (h.inHeap entry hentry)) (ht.root_le h hroot entry hentry)
      exact hlate (Binary.le_trans htime hle)
    refine ⟨[], rfl, ?_, .nil, ?_, ht⟩
    · rw [List.filter_eq_nil_iff.2 hnone]
    · rwa [List.filter_eq_self.2 fun entry hentry => by simpa using hnone entry hentry]

/-- Pruning keeps the plan. -/
theorem prune (h : Plans schedule planned) :
    Plans schedule.prune planned ∧ (schedule.Timely → schedule.prune.Timely) ∧
      ∀ root, schedule.prune.heap[0]? = some root → schedule.prune.isLive root = true := by
  fun_induction Schedule.prune schedule with
  | case1 schedule hroot => exact ⟨h, id, fun root h' => by rw [hroot] at h'; cases h'⟩
  | case2 schedule root hroot hlive =>
    exact ⟨h, id, fun other h' => by cases hroot.symm.trans h'; exact hlive⟩
  | case3 schedule root hroot _ hpop =>
    rw [(Heap.pop?_eq_none_iff Entry.before).1 hpop] at hroot
    cases hroot
  | case4 schedule root hroot hdead entry rest hpop _ ih =>
    obtain rfl := Option.some.inj (hroot.symm.trans (Heap.pop?_eq_root Entry.before hpop))
    obtain ⟨hplans, htimely, hlive⟩ := ih (h.drop hpop (Bool.eq_false_iff.2 hdead))
    exact ⟨hplans, fun ht => htimely (ht.pop hpop _ _), hlive⟩

/-- The next time is that of the first planned entry in the order, infinity if nothing is planned,
and the plan stays as it is. -/
theorem nextTime (h : Plans schedule planned) (ht : schedule.Timely) :
    (planned = [] ∧ schedule.nextTime.1 = .infinity false ∨
      ∃ entry ∈ planned, schedule.nextTime.1 = entry.time ∧
        ∀ other ∈ planned, entry.key ≤ other.key) ∧
      Plans schedule.nextTime.2 planned ∧ schedule.nextTime.2.Timely := by
  obtain ⟨hplans, htimely, hlive⟩ := h.prune
  cases hroot : schedule.prune.heap[0]? with
  | none =>
    simp only [Schedule.nextTime, hroot]
    exact ⟨.inl ⟨hplans.eq_nil hroot, trivial⟩, hplans, htimely ht⟩
  | some root =>
    have hmem := (hplans.isLive_iff (root_mem hroot)).1 (hlive root hroot)
    simp only [Schedule.nextTime, hroot]
    exact ⟨.inr ⟨root, hmem, rfl, (htimely ht).root_le hplans hroot⟩, hplans, htimely ht⟩

end Plans

end Schedule

end FactRules
