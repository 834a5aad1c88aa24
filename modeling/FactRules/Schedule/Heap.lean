/-!
# Binary heaps in arrays

A heap keeps an item that comes before all others at index 0: no item comes before the one at half
its index. `Heap.push` puts an item at the end and lets it rise. `Heap.pop?` takes the root, puts
the last item in its place, lets it sink to a leaf along the children that come first, and lets it
rise from there. Of two children of which the left does not come before the right one, the right one
counts as first.

The order `before` need not be a total order; where it is not, the array shows how the items were
compared.
-/

namespace FactRules.Heap

variable {α : Type} (before : α → α → Bool)

/-- Exchanges the item at an index with its parent as long as it comes before it. -/
def rise {n : Nat} (items : Vector α n) (i : Nat) (hi : i < n) : Vector α n :=
  if h : i = 0 then items
  else
    let parent := (i - 1) / 2
    if before items[i] items[parent] then
      rise (items.swap i parent) parent (by omega)
    else items
termination_by i

/-- Exchanges the item at an index with the first of its children until it has none, and gives the
index it ends at. -/
def sink {n : Nat} (items : Vector α n) (i : Nat) (hi : i < n) : Vector α n × Fin n :=
  if h : 2 * i + 1 < n then
    if h' : 2 * i + 2 < n then
      if before items[2 * i + 1] items[2 * i + 2] then
        sink (items.swap i (2 * i + 1)) (2 * i + 1) h
      else sink (items.swap i (2 * i + 2)) (2 * i + 2) h'
    else sink (items.swap i (2 * i + 1)) (2 * i + 1) h
  else (items, ⟨i, hi⟩)
termination_by n - i

/-- Lets the item at the root find its place. -/
def settle {n : Nat} (items : Vector α n) (hn : 0 < n) : Vector α n :=
  let (sunk, leaf) := sink before items 0 hn
  rise before sunk leaf leaf.isLt

/-- Adds an item. -/
def push (heap : Array α) (item : α) : Array α :=
  (rise before (heap.push item).toVector heap.size (by simp)).toArray

/-- Takes the item at the root. -/
def pop? (heap : Array α) : Option (α × Array α) :=
  if h : heap.size = 0 then none
  else if h' : heap.size = 1 then some (heap[0], #[])
  else
    have rest : 0 < heap.pop.size := by simp; omega
    some
      (heap[0],
        (settle before (heap.pop.set 0 heap[heap.size - 1]).toVector (by simpa using rest)).toArray)

/-- Taking an item makes the heap smaller by one. -/
theorem size_of_pop? {heap rest : Array α} {item : α} (h : pop? before heap = some (item, rest)) :
    rest.size + 1 = heap.size := by
  unfold pop? at h
  split at h
  · simp at h
  · split at h
    · next hone => simp_all
    · obtain ⟨-, rfl⟩ := Prod.mk.inj (Option.some.inj h)
      simp
      omega

end FactRules.Heap
