import FactRules.Binary.Basic
import FactRules.OrderedMap
import FactRules.Schedule.Heap

/-!
# Schedules

A `Schedule` holds tasks with the times at which they become due. A task is scheduled at most once.
Tasks come out by time, those of one time in the order in which they were pushed.

The entries lie in a heap. Cancelling a task only forgets the number of its entry; the entry stays
in the heap and is dropped when it comes to the root. An entry is live if its task is scheduled
under its number.
-/

namespace FactRules

/-- A task in the heap: when it is due, and the how-manieth push it came with. -/
structure Entry (τ : Type) where
  time : Double
  number : Nat
  task : τ
deriving DecidableEq

/-- The order of entries: by time, and at equal times by number. A time that is no number neither
comes before another one nor after it. -/
def Entry.before {τ : Type} (a b : Entry τ) : Bool :=
  if a.time.same b.time then decide (a.number < b.number) else a.time.lt b.time

/-- Tasks with their due times. -/
structure Schedule (τ : Type) where
  heap : Array (Entry τ)
  live : OrderedMap τ Nat
  next : Nat

/-- A task cannot be pushed while it is scheduled. -/
structure AlreadyScheduled (τ : Type) where
  task : τ

/-- The wording of the refusal, given how tasks are shown. -/
def AlreadyScheduled.message {τ : Type} (text : τ → String) (error : AlreadyScheduled τ) : String :=
  "task " ++ text error.task ++ " is already scheduled"

namespace Schedule

variable {τ : Type}

/-- The schedule without tasks. -/
def empty : Schedule τ := ⟨#[], ∅, 0⟩

instance : EmptyCollection (Schedule τ) := ⟨empty⟩
instance : Inhabited (Schedule τ) := ⟨∅⟩

/-- The scheduled tasks, in the order in which they were pushed. -/
def tasks (schedule : Schedule τ) : List τ := schedule.live.keys

/-- The number of scheduled tasks. -/
def size (schedule : Schedule τ) : Nat := schedule.live.size

variable [DecidableEq τ]

/-- Whether a task is scheduled. -/
def isScheduled (schedule : Schedule τ) (task : τ) : Bool := schedule.live.contains task

/-- Whether an entry's task is scheduled under the entry's number. -/
def isLive (schedule : Schedule τ) (entry : Entry τ) : Bool :=
  schedule.live.get? entry.task == some entry.number

/-- Schedules a task. -/
def push (schedule : Schedule τ) (time : Double) (task : τ) :
    Except (AlreadyScheduled τ) (Schedule τ) :=
  if schedule.isScheduled task then .error ⟨task⟩
  else
    .ok
      { heap := Heap.push Entry.before schedule.heap ⟨time, schedule.next, task⟩
        live := schedule.live.insert task schedule.next
        next := schedule.next + 1 }

/-- Takes a task off the schedule, if it is on it. -/
def cancel (schedule : Schedule τ) (task : τ) : Schedule τ :=
  { schedule with live := schedule.live.erase task }

/-- Drops the entries at the root that are not live. -/
def prune (schedule : Schedule τ) : Schedule τ :=
  match schedule.heap[0]? with
  | none => schedule
  | some root =>
    if schedule.isLive root then schedule
    else
      match h : Heap.pop? Entry.before schedule.heap with
      | none => schedule
      | some (_, rest) =>
        have : rest.size < schedule.heap.size := by have := Heap.size_of_pop? _ h; omega
        prune { schedule with heap := rest }
termination_by schedule.heap.size

/-- The time of the next task, infinity if there is none, and the schedule without the entries
dropped on the way to it. -/
def nextTime (schedule : Schedule τ) : Double × Schedule τ :=
  let pruned := schedule.prune
  match pruned.heap[0]? with
  | none => (.infinity false, pruned)
  | some root => (root.time, pruned)

/-- Takes the tasks that are due at a time off the schedule, in order: as long as the entry at the
root is not later, it is taken out, and its task with it if it is live. -/
def popDue (schedule : Schedule τ) (now : Double) : List τ × Schedule τ :=
  match schedule.heap[0]? with
  | none => ([], schedule)
  | some root =>
    if root.time.le now then
      match h : Heap.pop? Entry.before schedule.heap with
      | none => ([], schedule)
      | some (entry, rest) =>
        have : rest.size < schedule.heap.size := by have := Heap.size_of_pop? _ h; omega
        if schedule.isLive entry then
          let (due, left) :=
            popDue { schedule with heap := rest, live := schedule.live.erase entry.task } now
          (entry.task :: due, left)
        else popDue { schedule with heap := rest } now
    else ([], schedule)
termination_by schedule.heap.size

end Schedule

end FactRules
