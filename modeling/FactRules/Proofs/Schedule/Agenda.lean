import FactRules.Proofs.Schedule.Plan
import Mathlib.Data.List.Sort

/-!
# A schedule is a list of tasks

An `Agenda` is a plain list of the scheduled tasks with their times, in the order of their latest
push. It has no heap, no numbers and no entries of cancelled tasks. `Schedule.replies_eq_agenda`
says that a schedule answers every sequence of requests as the agenda does, as long as no task is
pushed with a time that is no number, and that asking for the next time changes no later answer.

The two are related through the plan of the schedule (`Schedule.StandsFor`): the agenda forgets the
numbers. Each request keeps the relation (`Schedule.serve_agenda`).
-/

namespace FactRules

variable {τ : Type}

/-- The lesser of two times, the first one if neither is. -/
def lesser (least time : Double) : Double := if time.lt least then time else least

/-- Scheduled tasks with their times, in the order of their latest push. -/
abbrev Agenda (τ : Type) := List (τ × Double)

namespace Agenda

variable [DecidableEq τ]

/-- Puts a task on the agenda, if it is not on it. -/
def push (agenda : Agenda τ) (time : Double) (task : τ) :
    Except (AlreadyScheduled τ) (Agenda τ) :=
  if task ∈ agenda.map Prod.fst then .error ⟨task⟩ else .ok (agenda ++ [(task, time)])

/-- Takes a task off the agenda. -/
def cancel (agenda : Agenda τ) (task : τ) : Agenda τ := agenda.filter (·.1 ≠ task)

/-- Takes the tasks off that are due: they come by time, those of one time in the order of their
latest push. -/
def popDue (agenda : Agenda τ) (now : Double) : List τ × Agenda τ :=
  (((agenda.filter (·.2.le now)).insertionSort fun a b => a.2.le b.2 = true).map Prod.fst,
    agenda.filter (!·.2.le now))

/-- The least time on the agenda, infinity if the agenda is empty. -/
def nextTime (agenda : Agenda τ) : Double :=
  (agenda.map Prod.snd).foldl lesser (.infinity false)

end Agenda

/-! ## Requests -/

/-- What a schedule can be asked to do or to tell. -/
inductive ScheduleRequest (τ : Type) where
  | push (time : Double) (task : τ)
  | cancel (task : τ)
  | popDue (now : Double)
  | nextTime
  | isScheduled (task : τ)
  | tasks
  | size
deriving DecidableEq

/-- What a request is answered with. -/
inductive ScheduleReply (τ : Type) where
  | done
  | refused (error : AlreadyScheduled τ)
  | tasks (tasks : List τ)
  | time (time : Double)
  | truth (value : Bool)
  | count (number : Nat)

/-- A request does not push a time that is no number. -/
def ScheduleRequest.IsTimed : ScheduleRequest τ → Prop
  | .push time _ => time.isNan = false
  | _ => True

instance : DecidablePred (ScheduleRequest.IsTimed (τ := τ))
  | .push time _ => inferInstanceAs (Decidable (time.isNan = false))
  | .cancel _ | .popDue _ | .nextTime | .isScheduled _ | .tasks | .size => .isTrue trivial

/-- The replies to requests that are served one after the other. -/
def repliesOf {σ : Type} (serve : σ → ScheduleRequest τ → ScheduleReply τ × σ) :
    σ → List (ScheduleRequest τ) → List (ScheduleReply τ)
  | _, [] => []
  | state, request :: rest =>
    (serve state request).1 :: repliesOf serve (serve state request).2 rest

/-- The state after requests were served one after the other. -/
def stateAfter {σ : Type} (serve : σ → ScheduleRequest τ → ScheduleReply τ × σ) (state : σ)
    (requests : List (ScheduleRequest τ)) : σ :=
  requests.foldl (fun state request => (serve state request).2) state

section
variable [DecidableEq τ]

/-- How a schedule serves a request. A refused push leaves it as it is. -/
def Schedule.serve (schedule : Schedule τ) :
    ScheduleRequest τ → ScheduleReply τ × Schedule τ
  | .push time task =>
    match schedule.push time task with
    | .ok pushed => (.done, pushed)
    | .error error => (.refused error, schedule)
  | .cancel task => (.done, schedule.cancel task)
  | .popDue now => (.tasks (schedule.popDue now).1, (schedule.popDue now).2)
  | .nextTime => (.time schedule.nextTime.1, schedule.nextTime.2)
  | .isScheduled task => (.truth (schedule.isScheduled task), schedule)
  | .tasks => (.tasks schedule.tasks, schedule)
  | .size => (.count schedule.size, schedule)

/-- How an agenda serves a request. A refused push leaves it as it is. -/
def Agenda.serve (agenda : Agenda τ) : ScheduleRequest τ → ScheduleReply τ × Agenda τ
  | .push time task =>
    match agenda.push time task with
    | .ok pushed => (.done, pushed)
    | .error error => (.refused error, agenda)
  | .cancel task => (.done, agenda.cancel task)
  | .popDue now => (.tasks (agenda.popDue now).1, (agenda.popDue now).2)
  | .nextTime => (.time agenda.nextTime, agenda)
  | .isScheduled task => (.truth (decide (task ∈ agenda.map Prod.fst)), agenda)
  | .tasks => (.tasks (agenda.map Prod.fst), agenda)
  | .size => (.count agenda.length, agenda)

end

/-! ## Sorting by time keeps the order of pushes -/

/-- Where two orders agree on an item and a list, the item is put in the same place. -/
theorem orderedInsert_congr {α : Type} {r s : α → α → Prop} [DecidableRel r] [DecidableRel s]
    {a : α} {l : List α} (h : ∀ b ∈ l, r a b ↔ s a b) :
    l.orderedInsert r a = l.orderedInsert s a := by
  induction l with
  | nil => rfl
  | cons b l ih =>
    have hb : r a b ↔ s a b := h b (List.mem_cons_self ..)
    rw [List.orderedInsert_cons, List.orderedInsert_cons,
      ih fun c hc => h c (List.mem_cons_of_mem b hc)]
    by_cases hr : r a b
    · rw [if_pos hr, if_pos (hb.1 hr)]
    · rw [if_neg hr, if_neg fun hs => hr (hb.2 hs)]

/-- An entry that was pushed before another one is not later in the order exactly if it is not later
in time. -/
theorem Entry.time_le_iff {a b : Entry τ} (ha : a.time.isNan = false) (hb : b.time.isNan = false)
    (hnumber : a.number < b.number) : a.time.le b.time = true ↔ a.key ≤ b.key := by
  refine ⟨fun hle => ?_, Entry.time_le_of_key_le ha hb⟩
  obtain ⟨x, y, hx, hy, hxy⟩ := Binary.le_iff.1 hle
  rw [Entry.key, Entry.key, Prod.Lex.toLex_le_toLex, hx, hy]
  rcases Int.lt_or_eq_of_le hxy with hlt | heq
  · exact .inl hlt
  · exact .inr ⟨heq, Nat.le_of_lt hnumber⟩

/-- An entry that comes later in the order than one that was pushed after it is later in time. -/
theorem Entry.time_lt_of_key_le {a b : Entry τ} (ha : a.time.isNan = false)
    (hb : b.time.isNan = false) (h : a.key ≤ b.key) (hnumber : b.number < a.number) :
    a.time.lt b.time = true := by
  obtain ⟨x, hx⟩ := Binary.isNan_eq_false_iff.1 ha
  obtain ⟨y, hy⟩ := Binary.isNan_eq_false_iff.1 hb
  rw [Entry.key, Entry.key, Prod.Lex.toLex_le_toLex, hx, hy] at h
  refine Binary.lt_iff.2 ⟨x, y, hx, hy, ?_⟩
  rcases h with hlt | ⟨-, hle⟩
  · exact hlt
  · exact absurd hle (Nat.not_le.2 hnumber)

/-- Sorting entries in the order of their pushes by time sorts them by time and number. -/
theorem insertionSort_time_eq_key {entries : List (Entry τ)}
    (timed : ∀ entry ∈ entries, entry.time.isNan = false)
    (numbered : entries.Pairwise fun a b => a.number < b.number) :
    entries.insertionSort (fun a b => a.time.le b.time = true) =
      entries.insertionSort fun a b => a.key ≤ b.key := by
  induction entries with
  | nil => rfl
  | cons entry rest ih =>
    obtain ⟨hentry, hrest⟩ := List.pairwise_cons.1 numbered
    have htimed : ∀ other ∈ rest, other.time.isNan = false :=
      fun other hother => timed other (List.mem_cons_of_mem _ hother)
    rw [List.insertionSort_cons, List.insertionSort_cons, ih htimed hrest]
    refine orderedInsert_congr fun other hother => ?_
    have hother := (List.mem_insertionSort _).1 hother
    exact Entry.time_le_iff (timed entry (List.mem_cons_self ..)) (htimed other hother)
      (hentry other hother)

/-- Entries that are sorted by time and number are what sorting by time makes of their pushes. -/
theorem eq_insertionSort_time {entries sorted : List (Entry τ)}
    (timed : ∀ entry ∈ entries, entry.time.isNan = false)
    (numbered : entries.Pairwise fun a b => a.number < b.number)
    (hperm : sorted.Perm entries) (hsorted : sorted.Pairwise fun a b => a.key < b.key) :
    entries.insertionSort (fun a b => a.time.le b.time = true) = sorted := by
  rw [insertionSort_time_eq_key timed numbered]
  have hinsertion := List.perm_insertionSort (fun a b : Entry τ => a.key ≤ b.key) entries
  have hnumber : (entries.map Entry.number).Nodup := by
    rw [List.Nodup, List.pairwise_map]
    exact numbered.imp Nat.ne_of_lt
  refine (hinsertion.trans hperm.symm).eq_of_pairwise (fun a b ha hb hab hba => ?_)
    (List.pairwise_insertionSort _ _) (hsorted.imp le_of_lt)
  have hkey : a.number = b.number :=
    congrArg (fun key : Int ×ₗ Nat => (ofLex key).2) (le_antisymm hab hba)
  exact List.inj_on_of_nodup_map hnumber (hinsertion.subset ha) (hperm.subset hb) hkey

/-! ## The least time -/

/-- A number is below infinity or is infinity. -/
theorem Double.lt_infinity_or_eq {x : Double} (h : x.isNan = false) :
    x.lt (.infinity false) = true ∨ .infinity false = x := by
  have hinfinity : (Binary.infinity false : Double).ordinal? =
      some (Format.double.infinityRank : Int) := by decide
  cases x with
  | nan => cases h
  | num negative rank hrank =>
    cases negative with
    | true =>
      have hpos : 0 < Format.double.infinityRank := by decide
      refine .inl (Binary.lt_iff.2 ⟨-rank, _, rfl, hinfinity, ?_⟩)
      omega
    | false =>
      rcases Nat.lt_or_eq_of_le hrank with hlt | rfl
      · exact .inl (Binary.lt_iff.2 ⟨rank, _, rfl, hinfinity, Int.ofNat_lt.2 hlt⟩)
      · exact .inr (by simp [Binary.infinity, Binary.ofRank])

/-- The least of times that are all above `x` is above `x`, or is `x` where the search began with
it. -/
theorem foldl_lesser_above {x : Double} (times : List Double) {start : Double}
    (above : ∀ time ∈ times, x.lt time = true) (hstart : x.lt start = true ∨ start = x) :
    x.lt (times.foldl lesser start) = true ∨ times.foldl lesser start = x := by
  induction times generalizing start with
  | nil => exact hstart
  | cons time rest ih =>
    refine ih (fun other hother => above other (List.mem_cons_of_mem _ hother)) ?_
    unfold lesser
    split
    · exact .inl (above time (List.mem_cons_self ..))
    · exact hstart

/-- A search that has found `x` ends with it if no later time is below. -/
theorem foldl_lesser_stays {x : Double} {times : List Double}
    (notBelow : ∀ time ∈ times, time.lt x = false) : times.foldl lesser x = x := by
  induction times with
  | nil => rfl
  | cons time rest ih =>
    rw [List.foldl_cons, lesser, notBelow time (List.mem_cons_self ..)]
    exact ih fun other hother => notBelow other (List.mem_cons_of_mem _ hother)

/-- The least time is that of the first entry in the order of time and number: the entries that were
pushed before it are later, and those that were pushed after it are not earlier. -/
theorem foldl_lesser_eq {planned : List (Entry τ)} {entry : Entry τ}
    (timed : ∀ other ∈ planned, other.time.isNan = false)
    (numbered : planned.Pairwise fun a b => a.number < b.number) (hentry : entry ∈ planned)
    (first : ∀ other ∈ planned, entry.key ≤ other.key) :
    (planned.map (·.time)).foldl lesser (.infinity false) = entry.time := by
  obtain ⟨front, back, rfl⟩ := List.append_of_mem hentry
  have hfront := (List.pairwise_append.1 numbered).2.2
  have hnan := timed entry hentry
  have habove : ∀ time ∈ front.map (·.time), entry.time.lt time = true := by
    intro time htime
    obtain ⟨other, hother, rfl⟩ := List.mem_map.1 htime
    have hmem : other ∈ front ++ entry :: back := List.mem_append_left _ hother
    have hnumber := hfront other hother entry (List.mem_cons_self ..)
    exact Entry.time_lt_of_key_le hnan (timed other hmem) (first other hmem) hnumber
  have hbelow : ∀ time ∈ back.map (·.time), time.lt entry.time = false := by
    intro time htime
    obtain ⟨other, hother, rfl⟩ := List.mem_map.1 htime
    have hmem : other ∈ front ++ entry :: back :=
      List.mem_append_right _ (List.mem_cons_of_mem _ hother)
    exact Binary.lt_eq_false_of_le
      (Entry.time_le_of_key_le hnan (timed other hmem) (first other hmem))
  rw [List.map_append, List.map_cons, List.foldl_append, List.foldl_cons]
  have hhere : lesser ((front.map (·.time)).foldl lesser (.infinity false)) entry.time =
      entry.time := by
    rcases foldl_lesser_above _ habove (Double.lt_infinity_or_eq hnan) with hlt | heq
    · exact if_pos hlt
    · rw [heq, lesser, ite_self]
  rw [hhere]
  exact foldl_lesser_stays hbelow

/-! ## A schedule serves as its agenda does -/

/-- A schedule stands for an agenda if its plan holds the tasks and times of the agenda. -/
def Schedule.StandsFor (schedule : Schedule τ) (agenda : Agenda τ) : Prop :=
  ∃ planned, schedule.Plans planned ∧ schedule.Timely ∧
    agenda = planned.map fun entry => (entry.task, entry.time)

/-- With nothing scheduled, the agenda is empty. -/
theorem Schedule.empty_standsFor : (∅ : Schedule τ).StandsFor [] :=
  ⟨[], .empty, .empty, rfl⟩

/-- Pushing a plan again pushes its tasks in their order. -/
theorem map_fst_pushes (planned : List (Entry τ)) :
    (planned.map fun entry => (entry.task, entry.time)).map Prod.fst = planned.map (·.task) := by
  rw [List.map_map]
  rfl

variable [DecidableEq τ]

namespace Schedule.StandsFor

variable {schedule : Schedule τ} {agenda : Agenda τ}

/-- A push is refused by both or by none. -/
theorem serve_push (h : schedule.StandsFor agenda) {time : Double} (timed : time.isNan = false)
    (task : τ) : (schedule.serve (.push time task)).1 = (agenda.serve (.push time task)).1 ∧
      (schedule.serve (.push time task)).2.StandsFor (agenda.serve (.push time task)).2 := by
  obtain ⟨planned, hplans, htimely, rfl⟩ := h
  by_cases hscheduled : ∃ entry ∈ planned, entry.task = task
  · have hmem : task ∈ (planned.map fun entry => (entry.task, entry.time)).map Prod.fst := by
      rw [map_fst_pushes]
      exact List.mem_map.2 hscheduled
    simp only [Schedule.serve, Agenda.serve, Agenda.push, hplans.push_error time hscheduled,
      if_pos hmem]
    exact ⟨trivial, planned, hplans, htimely, rfl⟩
  · have hmem : task ∉ (planned.map fun entry => (entry.task, entry.time)).map Prod.fst := by
      rw [map_fst_pushes]
      exact fun hmem => hscheduled (List.mem_map.1 hmem)
    obtain ⟨pushed, hpush, hplans', htimely'⟩ := hplans.push time hscheduled
    simp only [Schedule.serve, Agenda.serve, Agenda.push, hpush, if_neg hmem]
    exact ⟨trivial, _, hplans', htimely' htimely timed, by simp⟩

/-- What is due comes in the same order. -/
theorem serve_popDue (h : schedule.StandsFor agenda) (now : Double) :
    (schedule.serve (.popDue now)).1 = (agenda.serve (.popDue now)).1 ∧
      (schedule.serve (.popDue now)).2.StandsFor (agenda.serve (.popDue now)).2 := by
  obtain ⟨planned, hplans, htimely, rfl⟩ := h
  have htimed : ∀ entry ∈ planned.filter (·.time.le now), entry.time.isNan = false :=
    fun entry hentry => htimely.timed entry (hplans.inHeap entry (List.mem_filter.1 hentry).1)
  obtain ⟨due, hdue, hperm, hsorted, hplans', htimely'⟩ := hplans.popDue htimely now
  have hsort := eq_insertionSort_time htimed (hplans.numbered.filter _) hperm hsorted
  refine ⟨congrArg ScheduleReply.tasks ?_, _, hplans', htimely', ?_⟩
  · have hfilter : (planned.map fun entry => (entry.task, entry.time)).filter (·.2.le now) =
        (planned.filter (·.time.le now)).map fun entry => (entry.task, entry.time) :=
      List.filter_map ..
    rw [hdue, Agenda.popDue, hfilter,
      ← List.map_insertionSort (fun a b : Entry τ => a.time.le b.time = true) _ _ _
        fun _ _ _ _ => Iff.rfl, hsort, List.map_map]
    rfl
  · simp [Agenda.serve, Agenda.popDue, List.filter_map, Function.comp_def]

/-- The next time is the least one. -/
theorem serve_nextTime (h : schedule.StandsFor agenda) :
    (schedule.serve .nextTime).1 = (agenda.serve .nextTime).1 ∧
      (schedule.serve .nextTime).2.StandsFor (agenda.serve .nextTime).2 := by
  obtain ⟨planned, hplans, htimely, rfl⟩ := h
  have htimed : ∀ entry ∈ planned, entry.time.isNan = false :=
    fun entry hentry => htimely.timed entry (hplans.inHeap entry hentry)
  obtain ⟨hnext, hplans', htimely'⟩ := hplans.nextTime htimely
  refine ⟨congrArg ScheduleReply.time ?_, planned, hplans', htimely', rfl⟩
  rw [Agenda.nextTime, List.map_map]
  rcases hnext with ⟨rfl, htime⟩ | ⟨entry, hentry, htime, hfirst⟩
  · exact htime
  · exact htime.trans (foldl_lesser_eq htimed hplans.numbered hentry hfirst).symm

end Schedule.StandsFor

/-- Each request is answered by a schedule as by the agenda it stands for, and it stands for the
agenda afterwards. -/
theorem Schedule.serve_agenda {schedule : Schedule τ} {agenda : Agenda τ}
    (h : schedule.StandsFor agenda) {request : ScheduleRequest τ} (timed : request.IsTimed) :
    (schedule.serve request).1 = (agenda.serve request).1 ∧
      (schedule.serve request).2.StandsFor (agenda.serve request).2 := by
  cases request with
  | push time task => exact h.serve_push timed task
  | popDue now => exact h.serve_popDue now
  | nextTime => exact h.serve_nextTime
  | cancel task =>
    obtain ⟨planned, hplans, htimely, rfl⟩ := h
    refine ⟨rfl, _, hplans.cancel task, ⟨htimely.timed, htimely.heap⟩, ?_⟩
    simp [Agenda.serve, Agenda.cancel, List.filter_map, Function.comp_def]
  | isScheduled task =>
    obtain ⟨planned, hplans, htimely, rfl⟩ := h
    refine ⟨congrArg ScheduleReply.truth ?_, planned, hplans, htimely, rfl⟩
    rw [map_fst_pushes, Bool.eq_iff_iff, hplans.isScheduled_iff, decide_eq_true_eq, List.mem_map]
  | tasks =>
    obtain ⟨planned, hplans, htimely, rfl⟩ := h
    refine ⟨?_, planned, hplans, htimely, rfl⟩
    simp only [Schedule.serve, Agenda.serve, map_fst_pushes, hplans.tasks_eq]
  | size =>
    obtain ⟨planned, hplans, htimely, rfl⟩ := h
    refine ⟨?_, planned, hplans, htimely, rfl⟩
    simp only [Schedule.serve, Agenda.serve, hplans.size_eq, List.length_map]

/-- A schedule that stands for an agenda answers a sequence of requests as the agenda does, and
stands for the agenda after them. -/
theorem Schedule.serve_all_agenda {schedule : Schedule τ} {agenda : Agenda τ}
    (h : schedule.StandsFor agenda) {requests : List (ScheduleRequest τ)}
    (timed : ∀ request ∈ requests, request.IsTimed) :
    repliesOf Schedule.serve schedule requests = repliesOf Agenda.serve agenda requests ∧
      (stateAfter Schedule.serve schedule requests).StandsFor
        (stateAfter Agenda.serve agenda requests) := by
  induction requests generalizing schedule agenda with
  | nil => exact ⟨rfl, h⟩
  | cons request rest ih =>
    obtain ⟨hreply, hstands⟩ := Schedule.serve_agenda h (timed request (List.mem_cons_self ..))
    obtain ⟨hreplies, hstate⟩ := ih hstands fun other hother =>
      timed other (List.mem_cons_of_mem _ hother)
    refine ⟨?_, hstate⟩
    rw [repliesOf, repliesOf, hreply, hreplies]

/-- A schedule answers every sequence of requests that pushes only times that are numbers as a plain
agenda does. When the next time was asked for changes no later answer. -/
theorem Schedule.replies_eq_agenda (requests : List (ScheduleRequest τ))
    (timed : ∀ request ∈ requests, request.IsTimed) :
    repliesOf Schedule.serve ∅ requests = repliesOf Agenda.serve [] requests ∧
      ∀ before after, requests = before ++ after →
        repliesOf Schedule.serve (stateAfter Schedule.serve ∅ (before ++ [.nextTime])) after =
          repliesOf Schedule.serve (stateAfter Schedule.serve ∅ before) after := by
  refine ⟨(Schedule.serve_all_agenda Schedule.empty_standsFor timed).1, ?_⟩
  rintro before after rfl
  have hbefore := (Schedule.serve_all_agenda Schedule.empty_standsFor fun request hrequest =>
    timed request (List.mem_append_left _ hrequest)).2
  have htimed : (ScheduleRequest.nextTime : ScheduleRequest τ).IsTimed := trivial
  have hasked := (Schedule.serve_agenda hbefore htimed).2
  have hafter : ∀ request ∈ after, request.IsTimed := fun request hrequest =>
    timed request (List.mem_append_right _ hrequest)
  rw [stateAfter, List.foldl_append, ← stateAfter]
  exact (Schedule.serve_all_agenda hasked hafter).1.trans
    (Schedule.serve_all_agenda hbefore hafter).1.symm

/-- Requests with a refused push, an entry that is cancelled and pushed again, two zeros and an
infinite time. -/
def mixedRequests : List (ScheduleRequest Nat) :=
  [.push (.ofRank false 1) 1, .push (.ofRank false 0) 2, .push (.ofRank true 0) 3,
    .push (.infinity false) 4, .push (.ofRank false 2) 1, .cancel 1, .push (.ofRank false 2) 1,
    .nextTime, .popDue (.ofRank false 1), .popDue .nan, .nextTime, .tasks,
    .popDue (.infinity false), .size]

/-- The replies to them are those of the agenda: the task that is pushed twice is refused, the one
that is cancelled is not popped, and tasks of one time, which both zeros are, are popped in the
order of their pushes. -/
theorem mixedRequests_replies :
    (∀ request ∈ mixedRequests, request.IsTimed) ∧
      repliesOf Schedule.serve ∅ mixedRequests =
        [.done, .done, .done, .done, .refused ⟨1⟩, .done, .done, .time (.ofRank false 0),
          .tasks [2, 3], .tasks [], .time (.ofRank false 2), .tasks [4, 1], .tasks [1, 4],
          .count 0] := by
  have timed : ∀ request ∈ mixedRequests, request.IsTimed := by decide
  exact ⟨timed, (Schedule.replies_eq_agenda mixedRequests timed).1.trans (by rfl)⟩

end FactRules
