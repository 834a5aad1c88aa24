import FactRules.Proofs.Schedule.Plan

/-!
# Due times

What a schedule holds of a task is the time at which the task is due, if it is scheduled
(`Schedule.dueTime?`). On a schedule that has a plan (`Schedule.Sound`) the operations are described
by what they do to due times alone: `Sound.cancel`, `Sound.push` and `Sound.popDue`. Users of a
schedule need neither its heap nor its plan.
-/

namespace FactRules

namespace Schedule

variable {τ : Type} {schedule : Schedule τ}

/-- The live entries of the heap are those of a plan. -/
def Sound (schedule : Schedule τ) : Prop := ∃ planned, schedule.Plans planned

theorem Sound.empty : Sound (∅ : Schedule τ) := ⟨[], .empty⟩

variable [DecidableEq τ]

/-- The time at which a task is due, if it is scheduled. -/
def dueTime? (schedule : Schedule τ) (task : τ) : Option Double :=
  (schedule.heap.toList.find? fun entry => decide (entry.task = task) && schedule.isLive entry).map
    (·.time)

/-- A task is due when its entry in the plan says. -/
theorem Plans.dueTime?_eq_some_iff {planned : List (Entry τ)} (h : Plans schedule planned)
    {task : τ} {time : Double} :
    schedule.dueTime? task = some time ↔
      ∃ entry ∈ planned, entry.task = task ∧ entry.time = time := by
  rw [dueTime?, Option.map_eq_some_iff]
  constructor
  · rintro ⟨entry, hfind, htime⟩
    have hentry := List.find?_some hfind
    rw [Bool.and_eq_true, decide_eq_true_eq] at hentry
    exact ⟨entry, (h.isLive_iff (List.mem_of_find?_eq_some hfind)).1 hentry.2, hentry.1, htime⟩
  · rintro ⟨entry, hmem, htask, htime⟩
    have hlive := (h.isLive_iff (h.inHeap entry hmem)).2 hmem
    have hsome : (schedule.heap.toList.find? fun entry =>
        decide (entry.task = task) && schedule.isLive entry).isSome :=
      List.find?_isSome.2 ⟨entry, h.inHeap entry hmem, by simp [hlive, htask]⟩
    obtain ⟨other, hfind⟩ := Option.isSome_iff_exists.1 hsome
    have hother := List.find?_some hfind
    rw [Bool.and_eq_true, decide_eq_true_eq] at hother
    have hplanned := (h.isLive_iff (List.mem_of_find?_eq_some hfind)).1 hother.2
    have heq := h.eq_of_task hplanned hmem (hother.1.trans htask.symm)
    exact ⟨other, hfind, heq ▸ htime⟩

/-- The tasks that are pending, each with its due time. -/
def timetable (schedule : Schedule τ) : List (τ × Double) :=
  schedule.pending.map fun entry => (entry.task, entry.time)

/-- Two plans with the same entries for a task have the same due time for it. -/
theorem Plans.dueTime?_congr {other : Schedule τ} {planned left : List (Entry τ)}
    (h : Plans schedule planned) (hother : Plans other left) {task : τ}
    (hsame : ∀ entry : Entry τ, entry.task = task → (entry ∈ planned ↔ entry ∈ left)) :
    schedule.dueTime? task = other.dueTime? task := by
  refine Option.ext fun time => ?_
  rw [h.dueTime?_eq_some_iff, hother.dueTime?_eq_some_iff]
  refine exists_congr fun entry => ?_
  exact ⟨fun ⟨hmem, htask, htime⟩ => ⟨(hsame entry htask).1 hmem, htask, htime⟩,
    fun ⟨hmem, htask, htime⟩ => ⟨(hsame entry htask).2 hmem, htask, htime⟩⟩

/-- Cancelling leaves the heap as it is. -/
theorem Timely.cancelAll (ht : schedule.Timely) (cancelled : List τ) :
    (cancelled.foldl Schedule.cancel schedule).Timely := by
  induction cancelled generalizing schedule with
  | nil => exact ht
  | cons first rest ih =>
    have hfirst : (schedule.cancel first).Timely := ⟨ht.timed, ht.heap⟩
    exact ih hfirst

namespace Sound

/-- A task is scheduled exactly if it has a due time. -/
theorem isScheduled_eq (h : Sound schedule) (task : τ) :
    schedule.isScheduled task = (schedule.dueTime? task).isSome := by
  obtain ⟨planned, h⟩ := h
  rw [Bool.eq_iff_iff, h.isScheduled_iff, Option.isSome_iff_exists]
  constructor
  · rintro ⟨entry, hmem, htask⟩
    exact ⟨entry.time, h.dueTime?_eq_some_iff.2 ⟨entry, hmem, htask, rfl⟩⟩
  · rintro ⟨time, htime⟩
    obtain ⟨entry, hmem, htask, _⟩ := h.dueTime?_eq_some_iff.1 htime
    exact ⟨entry, hmem, htask⟩

/-- The tasks of a schedule are those with a due time. -/
theorem mem_tasks_iff (h : Sound schedule) {task : τ} :
    task ∈ schedule.tasks ↔ (schedule.dueTime? task).isSome := by
  rw [← h.isScheduled_eq]
  exact OrderedMap.mem_keys_iff

/-- Cancelling takes the due time of its task and of no other. -/
theorem cancel (h : Sound schedule) (task : τ) :
    Sound (schedule.cancel task) ∧ ∀ other, (schedule.cancel task).dueTime? other =
      if task = other then none else schedule.dueTime? other := by
  obtain ⟨planned, h⟩ := h
  have hcancel := h.cancel task
  refine ⟨⟨_, hcancel⟩, fun other => ?_⟩
  split
  · next heq =>
    refine Option.eq_none_iff_forall_ne_some.2 fun time htime => ?_
    obtain ⟨entry, hmem, htask, _⟩ := hcancel.dueTime?_eq_some_iff.1 htime
    have := (List.mem_filter.1 hmem).2
    rw [decide_eq_true_eq] at this
    exact this (htask.trans heq.symm)
  · next hne =>
    refine (h.dueTime?_congr hcancel fun entry htask => ?_).symm
    rw [List.mem_filter, decide_eq_true_eq, htask]
    exact ⟨fun hmem => ⟨hmem, fun heq => hne heq.symm⟩, fun hmem => hmem.1⟩

/-- Cancelling tasks one after the other takes the due times of all of them. -/
theorem cancelAll (h : Sound schedule) (cancelled : List τ) :
    Sound (cancelled.foldl Schedule.cancel schedule) ∧
      ∀ task, (cancelled.foldl Schedule.cancel schedule).dueTime? task =
        if task ∈ cancelled then none else schedule.dueTime? task := by
  induction cancelled generalizing schedule with
  | nil => exact ⟨h, fun task => rfl⟩
  | cons first rest ih =>
    obtain ⟨hfirst, hdue⟩ := h.cancel first
    obtain ⟨hrest, hdues⟩ := ih hfirst
    refine ⟨hrest, fun task => ?_⟩
    rw [List.foldl_cons, hdues, hdue]
    by_cases hmem : task ∈ rest
    · rw [if_pos hmem, if_pos (List.mem_cons_of_mem _ hmem)]
    · rw [if_neg hmem]
      refine if_congr ?_ rfl rfl
      rw [List.mem_cons, or_iff_left hmem, eq_comm]

/-- Cancelling the tasks that pass a test takes the due times of just these. -/
theorem cancelWhere (h : Sound schedule) (p : τ → Bool) :
    Sound ((schedule.tasks.filter p).foldl Schedule.cancel schedule) ∧
      ∀ task, ((schedule.tasks.filter p).foldl Schedule.cancel schedule).dueTime? task =
        if p task then none else schedule.dueTime? task := by
  obtain ⟨hsound, hdue⟩ := h.cancelAll (schedule.tasks.filter p)
  refine ⟨hsound, fun task => ?_⟩
  have hmem : task ∈ schedule.tasks.filter p ↔
      (schedule.dueTime? task).isSome ∧ p task = true := by
    rw [List.mem_filter, h.mem_tasks_iff]
  rw [hdue]
  split
  · next hcancelled => rw [if_pos (hmem.1 hcancelled).2]
  · next hkept =>
    split
    · next hp => exact Option.not_isSome_iff_eq_none.1 fun hsome => hkept (hmem.2 ⟨hsome, hp⟩)
    · rfl

/-- A task without a due time can be pushed, and then has the given one. -/
theorem push (h : Sound schedule) {task : τ} (time : Double)
    (hfree : schedule.dueTime? task = none) :
    ∃ pushed, schedule.push time task = .ok pushed ∧ Sound pushed ∧
      (∀ other, pushed.dueTime? other =
        if task = other then some time else schedule.dueTime? other) ∧
      (schedule.Timely → time.isNan = false → pushed.Timely) := by
  obtain ⟨planned, h⟩ := h
  have hnone : ¬ ∃ entry ∈ planned, entry.task = task := by
    rintro ⟨entry, hmem, htask⟩
    rw [h.dueTime?_eq_some_iff.2 ⟨entry, hmem, htask, rfl⟩] at hfree
    cases hfree
  obtain ⟨pushed, hpush, hplans, htimely⟩ := h.push time hnone
  refine ⟨pushed, hpush, ⟨_, hplans⟩, fun other => ?_, htimely⟩
  split
  · next heq =>
    have hmem := List.mem_append_right planned (List.mem_singleton_self ⟨time, schedule.next, task⟩)
    exact hplans.dueTime?_eq_some_iff.2 ⟨_, hmem, heq, rfl⟩
  · next hne =>
    refine (h.dueTime?_congr hplans fun entry htask => ?_).symm
    rw [List.mem_append, List.mem_singleton]
    constructor
    · exact .inl
    · rintro (hmem | rfl)
      · exact hmem
      · exact absurd htask hne

/-- The entries that are pending are of different tasks, and their tasks are those that are
scheduled. -/
theorem pending (h : Sound schedule) :
    (schedule.pending.map (·.task)).Nodup ∧
      (schedule.pending.map (·.task)).Perm schedule.tasks := by
  obtain ⟨planned, h⟩ := h
  have hperm : (schedule.pending.map (·.task)).Perm schedule.tasks := by
    rw [h.tasks_eq]
    exact h.pending_perm.map _
  exact ⟨hperm.nodup_iff.2 schedule.live.nodup_keys, hperm⟩

/-- An entry that is pending tells when its task is due. -/
theorem dueTime?_of_mem_pending (h : Sound schedule) {entry : Entry τ}
    (hentry : entry ∈ schedule.pending) : schedule.dueTime? entry.task = some entry.time := by
  obtain ⟨planned, h⟩ := h
  exact h.dueTime?_eq_some_iff.2 ⟨entry, h.pending_perm.mem_iff.1 hentry, rfl, rfl⟩

/-- What is pending are the tasks that have due times. -/
theorem mem_timetable_iff (h : Sound schedule) {task : τ} {time : Double} :
    (task, time) ∈ schedule.timetable ↔ schedule.dueTime? task = some time := by
  obtain ⟨planned, h⟩ := h
  rw [h.dueTime?_eq_some_iff, timetable, List.mem_map]
  simp only [h.pending_perm.mem_iff, Prod.mk.injEq]

/-- Schedules with the same due times have the same tasks pending for the same times. -/
theorem timetable_perm {other : Schedule τ} (h : Sound schedule) (hother : Sound other)
    (hdue : schedule.dueTime? = other.dueTime?) : schedule.timetable.Perm other.timetable := by
  have hnodup {some : Schedule τ} (hsome : Sound some) : some.timetable.Nodup := by
    refine List.Nodup.of_map Prod.fst ?_
    rw [timetable, List.map_map]
    exact hsome.pending.1
  refine (List.perm_ext_iff_of_nodup (hnodup h) (hnodup hother)).2 fun (task, time) => ?_
  rw [h.mem_timetable_iff, hother.mem_timetable_iff, hdue]

/-- Whatever the times are, what is popped is due, and the due times of all other tasks stay. -/
theorem popDue_within (h : Sound schedule) (now : Double) :
    Sound (schedule.popDue now).2 ∧
      (∀ task ∈ (schedule.popDue now).1, ∃ time ∈ schedule.dueTime? task, time.le now = true) ∧
      ∀ task, (schedule.popDue now).2.dueTime? task =
        if task ∈ (schedule.popDue now).1 then none else schedule.dueTime? task := by
  obtain ⟨planned, h⟩ := h
  obtain ⟨hleft, _, htasks⟩ := h.popDue_filter now
  refine ⟨⟨_, hleft⟩, fun task htask => ?_, fun task => ?_⟩
  · obtain ⟨entry, hentry, heq, hle⟩ := htasks task htask
    exact ⟨entry.time, h.dueTime?_eq_some_iff.2 ⟨entry, hentry, heq, rfl⟩, hle⟩
  · split
    · next hpopped =>
      refine Option.eq_none_iff_forall_not_mem.2 fun time htime => ?_
      obtain ⟨entry, hentry, rfl, _⟩ := hleft.dueTime?_eq_some_iff.1 htime
      exact of_decide_eq_true (List.mem_filter.1 hentry).2 hpopped
    · next hkept =>
      refine hleft.dueTime?_congr h fun entry htask => ⟨List.mem_of_mem_filter, fun hentry => ?_⟩
      exact List.mem_filter.2 ⟨hentry, decide_eq_true (htask ▸ hkept)⟩

/-- What is popped are the tasks whose due time has come, and these lose it. -/
theorem popDue (h : Sound schedule) (ht : schedule.Timely) (now : Double) :
    Sound (schedule.popDue now).2 ∧ (schedule.popDue now).2.Timely ∧
      (∀ task, task ∈ (schedule.popDue now).1 ↔ ∃ time ∈ schedule.dueTime? task, time.le now) ∧
      ∀ task, (schedule.popDue now).2.dueTime? task =
        (schedule.dueTime? task).filter (!·.le now) := by
  obtain ⟨planned, h⟩ := h
  obtain ⟨due, htasks, hperm, _, hplans, htimely⟩ := h.popDue ht now
  refine ⟨⟨_, hplans⟩, htimely, fun task => ?_, fun task => Option.ext fun time => ?_⟩
  · rw [htasks, List.mem_map]
    constructor
    · rintro ⟨entry, hmem, htask⟩
      have := List.mem_filter.1 (hperm.mem_iff.1 hmem)
      exact ⟨entry.time, h.dueTime?_eq_some_iff.2 ⟨entry, this.1, htask, rfl⟩, this.2⟩
    · rintro ⟨time, htime, hle⟩
      obtain ⟨entry, hmem, htask, rfl⟩ := h.dueTime?_eq_some_iff.1 htime
      exact ⟨entry, hperm.mem_iff.2 (List.mem_filter.2 ⟨hmem, hle⟩), htask⟩
  · rw [hplans.dueTime?_eq_some_iff, Option.filter_eq_some_iff, h.dueTime?_eq_some_iff]
    constructor
    · rintro ⟨entry, hmem, htask, rfl⟩
      have := List.mem_filter.1 hmem
      exact ⟨⟨entry, this.1, htask, rfl⟩, this.2⟩
    · rintro ⟨⟨entry, hmem, htask, rfl⟩, hlate⟩
      exact ⟨entry, List.mem_filter.2 ⟨hmem, hlate⟩, htask, rfl⟩

end Sound

end Schedule

end FactRules
