import FactRules.Proofs.Schedule.Agenda
import FactRules.Proofs.Schedule.DueTime

/-!
# Times that are no numbers

A time that is no number is neither before nor after another one. The entry that carries it is never
due, whether or not its task is cancelled: it leaves the heap only if it comes to the root, is not
live, and is dropped there. Until then it delays tasks that are due. What stands beneath it is in no
order with what stands above it, and popping ends where it comes to the root.

`Schedule.PopsSafely` is what popping does in spite of such entries: it gives only tasks that are
due, each of them once, takes just these off the schedule, and leaves a due task behind only beneath
an entry whose time is no number. It gives all tasks that are due, in their order
(`Schedule.PopsOnTime`), now and after every further sequence of requests, exactly if the heap holds
no such entry: `Schedule.popsOnTime_iff`.
-/

namespace FactRules

namespace Schedule

variable {τ : Type} {schedule : Schedule τ}

/-! ## Heaps of any times -/

/-- The heap is in order as far as its entries have places in the order, and the live ones are those
of a plan. -/
structure Formed (schedule : Schedule τ) : Prop where
  sound : schedule.Sound
  heap : Heap.IsHeap Entry.key? schedule.heap

theorem Formed.empty : Formed (∅ : Schedule τ) := ⟨.empty, .empty⟩

/-- A time in the heap is no number. -/
def HoldsUndefined (schedule : Schedule τ) : Prop :=
  ∃ entry ∈ schedule.heap.toList, entry.time.isNan = true

/-- An entry stands beneath one whose time is no number. -/
def LiesBeneathUndefined (schedule : Schedule τ) (entry : Entry τ) : Prop :=
  ∃ i, ∃ hi : i < schedule.heap.size, ∃ j, ∃ hj : j < schedule.heap.size,
    schedule.heap[i] = entry ∧ Heap.Beneath i j ∧ schedule.heap[j].time.isNan = true

/-- A schedule is timely unless its heap holds an undefined time. -/
theorem Formed.timely (h : Formed schedule) (hdefined : ¬ schedule.HoldsUndefined) :
    schedule.Timely where
  timed entry hentry := Bool.eq_false_iff.2 fun hnan => hdefined ⟨entry, hentry, hnan⟩
  heap := h.heap

/-- A due entry that stands beneath times that are numbers only has a due root above it. -/
theorem Formed.root_due (h : Formed schedule) {now : Double} {i : Nat}
    (hi : i < schedule.heap.size) (hdue : schedule.heap[i].time.le now = true)
    (habove : ∀ j (hj : j < schedule.heap.size), Heap.Beneath i j →
      schedule.heap[j].time.isNan = false) :
    ∃ root, schedule.heap[0]? = some root ∧ root.time.le now = true := by
  have hpos : 0 < schedule.heap.size := Nat.zero_lt_of_lt hi
  refine ⟨schedule.heap[0], Array.getElem?_eq_getElem hpos, ?_⟩
  have htimed : schedule.heap[i].time.isNan = false := by
    obtain ⟨x, _, hx, _⟩ := Binary.le_iff.1 hdue
    exact Binary.isNan_eq_false_iff.2 ⟨x, hx⟩
  have hroot : schedule.heap[0].time.isNan = false := by
    rcases Nat.eq_zero_or_pos i with rfl | hi'
    · exact htimed
    · exact habove 0 hpos (.root hi')
  have hle := Heap.Ordered.root_notAfter h.heap i hi fun j hj hbeneath => by
    rw [Vector.getElem_mk, Entry.key?_of_timed (habove j hj hbeneath)]
    rfl
  have hkey := hle _ (Entry.key?_of_timed hroot) _ (Entry.key?_of_timed htimed)
  exact Binary.le_trans (Entry.time_le_of_key_le hroot htimed hkey) hdue

variable [DecidableEq τ]

/-- Dropping what was cancelled from the root leaves a heap. -/
theorem prune_isHeap (h : Heap.IsHeap Entry.key? schedule.heap) :
    Heap.IsHeap Entry.key? schedule.prune.heap := by
  fun_induction Schedule.prune schedule with
  | case1 | case2 | case3 => exact h
  | case4 schedule _ _ _ _ _ hpop _ ih => exact ih (h.pop? Entry.compares hpop)

/-- Popping what is due leaves a heap. -/
theorem popDue_isHeap (h : Heap.IsHeap Entry.key? schedule.heap) (now : Double) :
    Heap.IsHeap Entry.key? (schedule.popDue now).2.heap := by
  fun_induction Schedule.popDue schedule now with
  | case1 | case2 | case5 => exact h
  | case3 schedule _ _ _ _ _ hpop _ _ _ left hrest ih =>
    rw [hrest] at ih
    exact ih (h.pop? Entry.compares hpop)
  | case4 schedule _ _ _ _ _ hpop _ _ ih => exact ih (h.pop? Entry.compares hpop)

/-- Every request keeps the heap formed, whatever time it pushes. -/
theorem Formed.serve (h : Formed schedule) (request : ScheduleRequest τ) :
    Formed (schedule.serve request).2 := by
  obtain ⟨⟨planned, hplans⟩, hheap⟩ := h
  cases request with
  | push time task =>
    by_cases hscheduled : ∃ entry ∈ planned, entry.task = task
    · simp only [Schedule.serve, hplans.push_error time hscheduled]
      exact ⟨⟨planned, hplans⟩, hheap⟩
    · obtain ⟨pushed, hpush, hplans', _⟩ := hplans.push time hscheduled
      simp only [Schedule.serve, hpush]
      refine ⟨⟨_, hplans'⟩, ?_⟩
      rw [Schedule.push] at hpush
      split at hpush
      · cases hpush
      · cases hpush
        exact hheap.push Entry.compares _
  | cancel task => exact ⟨⟨_, hplans.cancel task⟩, hheap⟩
  | popDue now => exact ⟨⟨_, (hplans.popDue_filter now).1⟩, popDue_isHeap hheap now⟩
  | nextTime =>
    have hnext : schedule.nextTime.2 = schedule.prune := by
      rw [nextTime]
      split <;> rfl
    simp only [Schedule.serve, hnext]
    exact ⟨⟨_, hplans.prune.1⟩, prune_isHeap hheap⟩
  | isScheduled task | tasks | size => exact ⟨⟨planned, hplans⟩, hheap⟩

/-- Requests lead from well-formed schedules to well-formed schedules, undefined times or not. -/
theorem Formed.serveAll (h : Formed schedule) (requests : List (ScheduleRequest τ)) :
    Formed (stateAfter Schedule.serve schedule requests) := by
  induction requests generalizing schedule with
  | nil => exact h
  | cons request rest ih => exact ih (h.serve request)

/-! ## What is on a schedule -/

/-- The scheduled tasks with their due times, in the order of their latest push. -/
def agenda (schedule : Schedule τ) : Agenda τ :=
  schedule.tasks.filterMap fun task => (schedule.dueTime? task).map fun time => (task, time)

/-- What is popped at a time are all scheduled tasks that are due: they come by time, those of one
time in the order of their latest push. -/
def PopsOnTime (schedule : Schedule τ) (now : Double) : Prop :=
  (schedule.popDue now).1 = (schedule.agenda.popDue now).1

instance (schedule : Schedule τ) (now : Double) : Decidable (schedule.PopsOnTime now) :=
  inferInstanceAs (Decidable (_ = _))

/-- Popping at a time gives only scheduled tasks that are due, each of them once, takes just these
off the schedule, and leaves a due task behind only beneath an entry whose time is no number. -/
structure PopsSafely (schedule : Schedule τ) (now : Double) : Prop where
  nodup : (schedule.popDue now).1.Nodup
  due : ∀ task ∈ (schedule.popDue now).1, ∃ time ∈ schedule.dueTime? task, time.le now = true
  left : (schedule.popDue now).2.agenda =
    schedule.agenda.filter (·.1 ∉ (schedule.popDue now).1)
  behind : ∀ entry ∈ (schedule.popDue now).2.pending, entry.time.le now = true →
    (schedule.popDue now).2.LiesBeneathUndefined entry

/-- The agenda of a schedule is its plan without the numbers. -/
theorem Plans.agenda_eq {planned : List (Entry τ)} (h : Plans schedule planned) :
    schedule.agenda = planned.map fun entry => (entry.task, entry.time) := by
  rw [agenda, h.tasks_eq, List.filterMap_map, ← List.filterMap_eq_map]
  refine List.filterMap_congr fun entry hentry => ?_
  have hdue : schedule.dueTime? entry.task = some entry.time :=
    h.dueTime?_eq_some_iff.2 ⟨entry, hentry, rfl, rfl⟩
  simp [hdue]

/-- A schedule that an agenda stands for holds this agenda, in its order. -/
theorem StandsFor.agenda_eq {agenda : Agenda τ} (h : schedule.StandsFor agenda) :
    schedule.agenda = agenda := by
  obtain ⟨planned, hplans, _, rfl⟩ := h
  exact hplans.agenda_eq

/-- A schedule that an agenda stands for pops what is due, all of it and in order. -/
theorem StandsFor.popsOnTime {agenda : Agenda τ} (h : schedule.StandsFor agenda) (now : Double) :
    schedule.PopsOnTime now := by
  have htimed : (ScheduleRequest.popDue now : ScheduleRequest τ).IsTimed := trivial
  have hreply := (serve_agenda h htimed).1
  rw [PopsOnTime, h.agenda_eq]
  exact ScheduleReply.tasks.inj hreply

/-! ## Popping in spite of undefined times -/

/-- Popping ends at a root that is not due. -/
theorem popDue_root {now : Double} {root : Entry τ}
    (hroot : (schedule.popDue now).2.heap[0]? = some root) : root.time.le now = false := by
  fun_induction Schedule.popDue schedule now with
  | case1 schedule hnone =>
    rw [hnone] at hroot
    cases hroot
  | case2 schedule other hother _ hpop =>
    rw [(Heap.pop?_eq_none_iff Entry.before).1 hpop] at hother
    cases hother
  | case3 schedule _ _ _ _ _ _ _ _ _ left hrest ih =>
    rw [hrest] at ih
    exact ih hroot
  | case4 _ _ _ _ _ _ _ _ _ ih => exact ih hroot
  | case5 schedule other hother hlate =>
    cases hother.symm.trans hroot
    exact Bool.eq_false_iff.2 hlate

/-- Entries that are not due stay in the heap. -/
theorem mem_popDue_heap {now : Double} {entry : Entry τ} (hentry : entry ∈ schedule.heap.toList)
    (hlate : entry.time.le now = false) : entry ∈ (schedule.popDue now).2.heap.toList := by
  have hstays : ∀ {schedule : Schedule τ} {root first : Entry τ} {rest : Array (Entry τ)},
      entry ∈ schedule.heap.toList → schedule.heap[0]? = some root → root.time.le now = true →
      Heap.pop? Entry.before schedule.heap = some (first, rest) → entry ∈ rest.toList := by
    intro schedule root first rest hentry hroot hdue hpop
    cases hroot.symm.trans (Heap.pop?_eq_root Entry.before hpop)
    rcases List.mem_cons.1 ((Heap.pop?_perm Entry.before hpop).symm.subset hentry) with rfl | hrest
    · rw [hlate] at hdue
      cases hdue
    · exact hrest
  fun_induction Schedule.popDue schedule now with
  | case1 | case2 | case5 => exact hentry
  | case3 schedule root hroot hdue _ _ hpop _ _ _ left hrest ih =>
    rw [hrest] at ih
    exact ih (hstays hentry hroot hdue hpop)
  | case4 schedule root hroot hdue _ _ hpop _ _ ih => exact ih (hstays hentry hroot hdue hpop)

/-- Popping is safe, whatever times the heap holds: a due entry that is left has no due root above
it, so it stands beneath an undefined time. -/
theorem Formed.popsSafely (h : Formed schedule) (now : Double) : schedule.PopsSafely now := by
  have hformed : Formed (schedule.popDue now).2 := h.serve (.popDue now)
  obtain ⟨planned, hplans⟩ := h.sound
  obtain ⟨hleft, hnodup, -⟩ := hplans.popDue_filter now
  refine ⟨hnodup, (h.sound.popDue_within now).2.1, ?_, fun entry hentry hentryDue => ?_⟩
  · rw [hleft.agenda_eq, hplans.agenda_eq, List.filter_map]
    rfl
  · have hmem := Array.mem_toList_iff.1 (List.mem_of_mem_filter hentry)
    obtain ⟨i, hi, rfl⟩ := Array.mem_iff_getElem.1 hmem
    by_contra hnot
    obtain ⟨root, hroot, hrootDue⟩ := hformed.root_due hi hentryDue fun j hj hbeneath =>
      Bool.eq_false_iff.2 fun hnan => hnot ⟨i, hi, j, hj, rfl, hbeneath, hnan⟩
    rw [popDue_root hroot] at hrootDue
    cases hrootDue

/-! ## Tasks that are delayed -/

/-- Nothing is popped while the time at the root is no number. -/
theorem popDue_of_undefined_root {root : Entry τ} (hroot : schedule.heap[0]? = some root)
    (hnan : root.time.isNan = true) (now : Double) : (schedule.popDue now).1 = [] := by
  have hlate : root.time.le now = false := Bool.eq_false_iff.2 fun hle => by
    obtain ⟨x, _, hx, _⟩ := Binary.le_iff.1 hle
    rw [Binary.isNan_eq_false_iff.2 ⟨x, hx⟩] at hnan
    cases hnan
  rw [Schedule.popDue]
  split
  · rfl
  · next other hother =>
    cases hother.symm.trans hroot
    rw [if_neg (by simp [hlate])]

/-- Popping at infinity brings a time that is no number to the root, if there is one in the heap. -/
theorem popDue_infinity_root (hundefined : schedule.HoldsUndefined) :
    ∃ root, (schedule.popDue (.infinity false)).2.heap[0]? = some root ∧
      root.time.isNan = true := by
  obtain ⟨entry, hentry, hnan⟩ := hundefined
  have hlate : entry.time.le (.infinity false) = false := by
    cases htime : entry.time with
    | nan => rfl
    | num negative rank hrank =>
      rw [htime] at hnan
      cases hnan
  have hmem := Array.mem_toList_iff.1 (mem_popDue_heap hentry hlate)
  obtain ⟨i, hi, -⟩ := Array.mem_iff_getElem.1 hmem
  have hroot := Array.getElem?_eq_getElem (Nat.zero_lt_of_lt hi)
  refine ⟨_, hroot, ?_⟩
  by_contra hdefined
  have hlast := popDue_root hroot
  rcases Double.lt_infinity_or_eq (Bool.eq_false_iff.2 hdefined) with hlt | heq
  · obtain ⟨x, y, hx, hy, hxy⟩ := Binary.lt_iff.1 hlt
    rw [Binary.le_iff.2 ⟨x, y, hx, hy, Int.le_of_lt hxy⟩] at hlast
    cases hlast
  · rw [← heq, Binary.le_refl (by rfl)] at hlast
    cases hlast

/-- Requests after which a task that is due is not popped, if a time in the heap is no number: the
task is taken off the schedule, everything that can be popped is popped, and the task is put on the
schedule again. -/
def delaying (task : τ) : List (ScheduleRequest τ) :=
  [.cancel task, .popDue (.infinity false), .push .zero task]

/-- With an undefined time in the heap, any task can be delayed. Popping up to infinity ends with an
undefined time at the root, and what is pushed then does not rise above it: it is due, but it is not
popped. -/
theorem Formed.delayed (h : Formed schedule) (hundefined : schedule.HoldsUndefined) (task : τ) :
    ¬ (stateAfter Schedule.serve schedule (delaying task)).PopsOnTime .zero := by
  have hcancelled : Formed (schedule.cancel task) := h.serve (.cancel task)
  have hpopped : Formed ((schedule.cancel task).popDue (.infinity false)).2 :=
    hcancelled.serve (.popDue _)
  have hstill : (schedule.cancel task).HoldsUndefined := hundefined
  obtain ⟨root, hroot, hnan⟩ := popDue_infinity_root hstill
  -- The task is not scheduled any more, so it can be pushed again, at a time that is due.
  have hfree : ((schedule.cancel task).popDue (.infinity false)).2.dueTime? task = none := by
    rw [(hcancelled.sound.popDue_within _).2.2, (h.sound.cancel task).2, if_pos rfl, ite_self]
  obtain ⟨pushed, hpush, hsound, hdue, _⟩ := hpopped.sound.push .zero hfree
  have hstate : stateAfter Schedule.serve schedule (delaying task) = pushed := by
    simp only [stateAfter, delaying, List.foldl_cons, List.foldl_nil, Schedule.serve, hpush]
  have hpushedRoot : pushed.heap[0]? = some root := by
    rw [Schedule.push] at hpush
    split at hpush
    · cases hpush
    · cases hpush
      refine Heap.push_root Entry.before hroot (fun item => Bool.eq_false_iff.2 fun hbefore => ?_) _
      rw [(Entry.timed_of_before hbefore).2] at hnan
      cases hnan
  rw [hstate, PopsOnTime, popDue_of_undefined_root hpushedRoot hnan]
  have hself : pushed.dueTime? task = some .zero := by rw [hdue, if_pos rfl]
  have hagenda : (task, (.zero : Double)) ∈ pushed.agenda := by
    have htask : task ∈ pushed.tasks := hsound.mem_tasks_iff.2 (by rw [hself]; rfl)
    exact List.mem_filterMap.2 ⟨task, htask, by rw [hself]; rfl⟩
  have hmem : task ∈ (pushed.agenda.popDue .zero).1 := by
    have hzero : (.zero : Double).le .zero = true := by decide
    refine List.mem_map.2 ⟨(task, .zero), ?_, rfl⟩
    exact (List.mem_insertionSort _).2 (List.mem_filter.2 ⟨hagenda, hzero⟩)
  exact fun hnil => absurd (hnil ▸ hmem) (List.not_mem_nil)

/-! ## When undefined times delay nobody -/

/-- After any requests, whatever times they push: popping is safe, and it stays on time through all
further requests that push numbers exactly if no time in the heap is undefined. -/
theorem popsOnTime_iff (requests : List (ScheduleRequest τ)) :
    let schedule := stateAfter Schedule.serve ∅ requests
    (∀ now, schedule.PopsSafely now) ∧
      ((∀ more : List (ScheduleRequest τ), (∀ request ∈ more, request.IsTimed) →
          ∀ now, (stateAfter Schedule.serve schedule more).PopsOnTime now) ↔
        ¬ schedule.HoldsUndefined) := by
  intro schedule
  have hformed : Formed schedule := Formed.empty.serveAll requests
  refine ⟨hformed.popsSafely, fun hontime hundefined => ?_, fun hdefined more timed now => ?_⟩
  · obtain ⟨entry, _, _⟩ := id hundefined
    refine hformed.delayed hundefined entry.task (hontime _ (fun request hrequest => ?_) _)
    simp only [delaying, List.mem_cons, List.not_mem_nil, or_false] at hrequest
    rcases hrequest with rfl | rfl | rfl <;> trivial
  · obtain ⟨planned, hplans⟩ := hformed.sound
    have hstands : schedule.StandsFor (planned.map fun entry => (entry.task, entry.time)) :=
      ⟨planned, hplans, hformed.timely hdefined, rfl⟩
    exact (serve_all_agenda hstands timed).2.popsOnTime now

/-- The first of two pushes is one at a time that is no number. -/
def undefinedFirst : List (ScheduleRequest Nat) := [.push .nan 1, .push (.ofRank false 1) 2]

/-- Then the other task is not popped when it is due, nor is it once the first one is cancelled,
unless the next time is asked for, which drops the cancelled entry. -/
theorem undefinedFirst_delays :
    undefinedFirst.countP (fun request => ¬ request.IsTimed) = 1 ∧
      (∀ more ∈ [[], [.cancel 1]],
        let schedule := stateAfter Schedule.serve ∅ (undefinedFirst ++ more)
        (schedule.popDue (.ofRank false 2)).1 = [] ∧
          (schedule.agenda.popDue (.ofRank false 2)).1 = [2] ∧
          ¬ schedule.PopsOnTime (.ofRank false 2)) ∧
      (stateAfter Schedule.serve ∅ (undefinedFirst ++ [.cancel 1, .nextTime])).PopsOnTime
        (.ofRank false 2) := by
  decide +kernel

end Schedule

end FactRules
