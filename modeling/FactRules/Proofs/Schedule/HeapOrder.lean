import FactRules.Schedule.Heap
import Mathlib.Order.Lattice

/-!
# Heaps keep their items, and keep them in order

Pushing and popping only move items (`Heap.push_perm`, `Heap.pop?_perm`), whatever the order is.
Where `before` compares the items by keys from a linear order (`Heap.Compares`), no item has a key
below its parent's (`Heap.Ordered`): `Heap.IsHeap.push`, `Heap.IsHeap.pop?`. An item may have no
key; it is then compared with nothing, and nothing is known of what stands beneath it. So the root
is not after an item that stands beneath items with keys only (`Heap.Ordered.root_notAfter`).

An item that has moved may be out of order with its parent. `Heap.OrderedExcept` is what holds while
it rises: all other items are in order, and the children of the moving item are in order with its
parent. While an item sinks, nothing is known of it and its children, either
(`Heap.OrderedAround`); at a leaf there are no children, and the item may rise.
-/

namespace FactRules.Heap

/-! ## The items -/

section
variable {α : Type} (before : α → α → Bool) {n : Nat}

/-- An item that rises is only swapped with others. -/
theorem rise_perm (items : Vector α n) (i : Nat) (hi : i < n) :
    (rise before items i hi).Perm items := by
  fun_induction rise before items i hi with
  | case1 => exact .refl _
  | case2 items i hi _ parent _ ih => exact ih.trans (Vector.swap_perm hi (by omega))
  | case3 => exact .refl _

/-- So is one that sinks. -/
theorem sink_perm (items : Vector α n) (i : Nat) (hi : i < n) :
    (sink before items i hi).1.Perm items := by
  fun_induction sink before items i hi with
  | case1 items i hi h _ _ ih => exact ih.trans (Vector.swap_perm hi h)
  | case2 items i hi _ h _ ih => exact ih.trans (Vector.swap_perm hi h)
  | case3 items i hi h _ ih => exact ih.trans (Vector.swap_perm hi h)
  | case4 => exact .refl _

/-- Sinking and rising again changes the order alone. -/
theorem settle_perm (items : Vector α n) (hn : 0 < n) : (settle before items hn).Perm items :=
  (rise_perm before _ _ _).trans (sink_perm before items 0 hn)

/-- Pushing adds the item and keeps the others. -/
theorem push_perm (heap : Array α) (item : α) :
    (push before heap item).toList.Perm (item :: heap.toList) := by
  have h := (rise_perm before (heap.push item).toVector heap.size (by simp)).toList
  exact h.trans (by simp)

/-- Where there is a second item, there is a first one without the last one. -/
theorem pop_pos {heap : Array α} (h : 1 < heap.size) : 0 < heap.pop.size := by
  rw [Array.size_pop]
  exact Nat.sub_pos_of_lt h

/-- The last item in the place of the first one leaves all items but the first one. -/
theorem replaceRoot_perm {heap : Array α} (h : 1 < heap.size) :
    (heap[0] :: (heap.pop.set 0 heap[heap.size - 1] (pop_pos h)).toList).Perm
      heap.toList := by
  obtain ⟨items⟩ := heap
  match items, h with
  | first :: second :: rest, _ =>
    have hlast := List.dropLast_concat_getLast (l := second :: rest) (by simp)
    have hperm := List.perm_append_singleton ((second :: rest).getLast (by simp))
      (second :: rest).dropLast
    rw [hlast] at hperm
    simpa [List.getLast_eq_getElem] using (hperm.symm.cons first)

/-- Popping takes the root and keeps the others. -/
theorem pop?_perm {heap rest : Array α} {item : α} (h : pop? before heap = some (item, rest)) :
    (item :: rest.toList).Perm heap.toList := by
  unfold pop? at h
  split at h
  · cases h
  · split at h
    · next hone =>
      cases h
      obtain ⟨items⟩ := heap
      obtain ⟨first, rfl⟩ := List.length_eq_one_iff.1 hone
      exact .refl _
    · next hzero hone =>
      cases h
      have hsize : 1 < heap.size := by omega
      refine List.Perm.trans (List.Perm.cons _ ?_) (replaceRoot_perm hsize)
      exact (settle_perm before _ _).toList

/-- What is popped is the root. -/
theorem pop?_eq_root {heap rest : Array α} {item : α} (h : pop? before heap = some (item, rest)) :
    heap[0]? = some item := by
  unfold pop? at h
  split at h
  · cases h
  · split at h <;> cases h <;> exact Array.getElem?_eq_getElem _

/-- The item at the root stays there while another one rises, if nothing comes before it. -/
theorem rise_root (items : Vector α n) (i : Nat) (hi : i < n) (hpos : 0 < i)
    (hfirst : ∀ item, before item (getElem items 0 (Nat.lt_trans hpos hi)) = false) :
    getElem (rise before items i hi) 0 (Nat.lt_trans hpos hi) =
      getElem items 0 (Nat.lt_trans hpos hi) := by
  fun_induction rise before items i hi with
  | case1 => rfl
  | case2 items i hi hne parent hbefore ih =>
    have hparent : 0 < parent := by
      refine Nat.pos_of_ne_zero fun hzero => ?_
      have hroot : (getElem items parent (by omega)) = getElem items 0 (by omega) := by simp [hzero]
      rw [hroot, hfirst] at hbefore
      cases hbefore
    have hkept : (items.swap i parent hi (by omega))[0] = getElem items 0 (by omega) := by
      simp [show ¬ 0 = i by omega, show ¬ 0 = parent by omega]
    rw [ih hparent (by rwa [hkept]), hkept]
  | case3 => rfl

/-- The root stays where an item is pushed, if nothing comes before it. -/
theorem push_root {heap : Array α} {root : α} (hroot : heap[0]? = some root)
    (hfirst : ∀ item, before item root = false) (item : α) :
    (push before heap item)[0]? = some root := by
  obtain ⟨hsize, rfl⟩ := Array.getElem?_eq_some_iff.1 hroot
  have hitem : (heap.push item)[0] = heap[0] := Array.getElem_push_lt hsize
  have hrise := rise_root before (heap.push item).toVector heap.size (by simp) hsize
    (by simpa [hitem] using hfirst)
  have hpush : (push before heap item)[0]? =
      (rise before (heap.push item).toVector heap.size (by simp))[0]? := by
    simp [push]
  rw [hpush, Vector.getElem?_eq_getElem (by simp), hrise]
  simp [hitem]

/-- There is nothing to pop only if the heap is empty. -/
theorem pop?_eq_none_iff {heap : Array α} : pop? before heap = none ↔ heap = #[] := by
  unfold pop?
  split
  · next h => simpa using h
  · next h =>
    have : heap ≠ #[] := fun e => h (by simp [e])
    split <;> simp [this]

end

/-! ## Their order -/

section
variable {α κ : Type} [LinearOrder κ] {before : α → α → Bool} {key? : α → Option κ} {n : Nat}

/-- `before` compares the items by their keys. An item without a key comes neither before another
one nor after it. -/
def Compares (before : α → α → Bool) (key? : α → Option κ) : Prop :=
  ∀ a b, before a b = true ↔ ∃ x ∈ key? a, ∃ y ∈ key? b, x < y

/-- An item is not after another one, as far as both have keys. -/
def NotAfter (key? : α → Option κ) (a b : α) : Prop := ∀ x ∈ key? a, ∀ y ∈ key? b, x ≤ y

theorem NotAfter.refl (a : α) : NotAfter key? a a :=
  fun _ hx _ hy => (Option.mem_unique hx hy).le

/-- Of three items in a row, the one in the middle must have a key: without one it is after
nothing. -/
theorem NotAfter.trans {a b c : α} (hab : NotAfter key? a b) (hb : (key? b).isSome)
    (hbc : NotAfter key? b c) : NotAfter key? a c := by
  obtain ⟨y, hy⟩ := Option.isSome_iff_exists.1 hb
  exact fun x hx z hz => (hab x hx y hy).trans (hbc y hy z hz)

/-- What comes before something is not after it. -/
theorem Compares.notAfter (hc : Compares before key?) {a b : α} (h : before a b = true) :
    NotAfter key? a b := by
  obtain ⟨x, hx, y, hy, hlt⟩ := (hc a b).1 h
  intro x' hx' y' hy'
  rw [Option.mem_unique hx' hx, Option.mem_unique hy' hy]
  exact hlt.le

/-- What something comes before has a key. -/
theorem Compares.isSome (hc : Compares before key?) {a b : α} (h : before a b = true) :
    (key? b).isSome := by
  obtain ⟨_, _, y, hy, _⟩ := (hc a b).1 h
  exact Option.isSome_iff_exists.2 ⟨y, hy⟩

/-- What something does not come before is not after it: keys are ordered linearly. -/
theorem Compares.notAfter_of_not (hc : Compares before key?) {a b : α}
    (h : ¬ before a b = true) : NotAfter key? b a :=
  fun y hy x hx => not_lt.1 fun hlt => h ((hc a b).2 ⟨x, hx, y, hy, hlt⟩)

/-- Where there is an item, there is its parent. -/
theorem parent_lt {i : Nat} (hi : i < n) : (i - 1) / 2 < n := by omega

/-- No item is before its parent. -/
def Ordered (key? : α → Option κ) (items : Vector α n) : Prop :=
  ∀ i (hi : i < n), 0 < i →
    NotAfter key? (getElem items ((i - 1) / 2) (parent_lt hi)) items[i]

/-- No item is before its parent, but perhaps the one at `hole`, whose children are not before its
parent. -/
structure OrderedExcept (key? : α → Option κ) (items : Vector α n) (hole : Nat)
    (hhole : hole < n) : Prop where
  others : ∀ i (hi : i < n), 0 < i → i ≠ hole →
    NotAfter key? (getElem items ((i - 1) / 2) (parent_lt hi)) items[i]
  children : 0 < hole → ∀ i (hi : i < n), 0 < i → (i - 1) / 2 = hole →
    NotAfter key? (getElem items ((hole - 1) / 2) (parent_lt hhole)) items[i]

/-- No item is before its parent, but perhaps the one at `hole` and its children, and its children
are not before its parent. -/
structure OrderedAround (key? : α → Option κ) (items : Vector α n) (hole : Nat)
    (hhole : hole < n) : Prop where
  others : ∀ i (hi : i < n), 0 < i → i ≠ hole → (i - 1) / 2 ≠ hole →
    NotAfter key? (getElem items ((i - 1) / 2) (parent_lt hi)) items[i]
  children : 0 < hole → ∀ i (hi : i < n), 0 < i → (i - 1) / 2 = hole →
    NotAfter key? (getElem items ((hole - 1) / 2) (parent_lt hhole)) items[i]

/-- An index stands beneath those that are reached from it by going to the parent. -/
inductive Beneath : Nat → Nat → Prop where
  | parent {i : Nat} (hpos : 0 < i) : Beneath i ((i - 1) / 2)
  | up {i j : Nat} (hpos : 0 < i) (h : Beneath ((i - 1) / 2) j) : Beneath i j

/-- Every index but the root's stands beneath the root. -/
theorem Beneath.root {i : Nat} (hpos : 0 < i) : Beneath i 0 := by
  induction i using Nat.strongRecOn with
  | ind i ih =>
    rcases Nat.eq_zero_or_pos ((i - 1) / 2) with hzero | hparent
    · exact hzero ▸ .parent hpos
    · exact .up hpos (ih _ (by omega) hparent)

/-- The root of an ordered heap is not after an item that stands beneath items with keys only: go up
from parent to parent. -/
theorem Ordered.root_notAfter {items : Vector α n} (h : Ordered key? items) (i : Nat) (hi : i < n)
    (habove : ∀ j (hj : j < n), Beneath i j → (key? items[j]).isSome) :
    NotAfter key? items[0] items[i] := by
  induction i using Nat.strongRecOn with
  | ind i ih =>
    rcases Nat.eq_zero_or_pos i with rfl | hpos
    · exact .refl _
    · have hparent := ih ((i - 1) / 2) (by omega) (parent_lt hi)
        fun j hj hbeneath => habove j hj (.up hpos hbeneath)
      exact hparent.trans (habove _ (parent_lt hi) (.parent hpos)) (h i hi hpos)

/-- An item that comes before its parent moves up, and only it may be out of order then. -/
theorem OrderedExcept.up {items : Vector α n} {i : Nat} {hi : i < n}
    (h : OrderedExcept key? items i hi) (hpos : i ≠ 0)
    (hle : NotAfter key? items[i] (getElem items ((i - 1) / 2) (parent_lt hi)))
    (hsome : (key? (getElem items ((i - 1) / 2) (parent_lt hi))).isSome) :
    OrderedExcept key? (items.swap i ((i - 1) / 2) hi (parent_lt hi)) ((i - 1) / 2)
      (parent_lt hi) := by
  constructor
  · intro j hj hjpos hne
    simp only [Vector.getElem_swap]
    by_cases hji : j = i
    · subst hji
      simpa [show ¬ (j - 1) / 2 = j by omega] using hle
    · by_cases hparent : (j - 1) / 2 = i
      · simpa [hji, hne, hparent] using h.children (by omega) j hj hjpos hparent
      · have hj' := h.others j hj hjpos hji
        by_cases hsibling : (j - 1) / 2 = (i - 1) / 2
        · simp only [hsibling] at hj' ⊢
          simpa [hji, hne, show ¬ (i - 1) / 2 = i by omega] using hle.trans hsome hj'
        · simpa [hji, hne, hparent, hsibling] using hj'
  · intro hpos' j hj hjpos hparent
    simp only [Vector.getElem_swap]
    have hgrand : NotAfter key? items[((i - 1) / 2 - 1) / 2] items[(i - 1) / 2] :=
      h.others ((i - 1) / 2) (by omega) hpos' (by omega)
    by_cases hji : j = i
    · subst hji
      simpa [show ¬ ((j - 1) / 2 - 1) / 2 = j by omega,
        show ¬ ((j - 1) / 2 - 1) / 2 = (j - 1) / 2 by omega] using hgrand
    · have hj' := h.others j hj hjpos hji
      simp only [hparent] at hj'
      simpa [hji, show ¬ j = (i - 1) / 2 by omega, show ¬ ((i - 1) / 2 - 1) / 2 = i by omega,
        show ¬ ((i - 1) / 2 - 1) / 2 = (i - 1) / 2 by omega] using hgrand.trans hsome hj'

/-- An item that is not before its parent stays, and all items are in order. -/
theorem OrderedExcept.stay {items : Vector α n} {i : Nat} {hi : i < n}
    (h : OrderedExcept key? items i hi)
    (hle : i ≠ 0 → NotAfter key? (getElem items ((i - 1) / 2) (parent_lt hi)) items[i]) :
    Ordered key? items := by
  intro j hj hpos
  by_cases hji : j = i
  · subst hji
    exact hle (by omega)
  · exact h.others j hj hpos hji

/-- Once the item at the hole has risen as far as it goes, all items are in order. -/
theorem rise_ordered {items : Vector α n} {i : Nat} {hi : i < n} (hc : Compares before key?)
    (h : OrderedExcept key? items i hi) : Ordered key? (rise before items i hi) := by
  fun_induction rise before items i hi with
  | case1 => exact h.stay fun h0 => absurd rfl h0
  | case2 items i hi hpos parent hbefore ih =>
    exact ih (h.up hpos (hc.notAfter hbefore) (hc.isSome hbefore))
  | case3 items i hi hpos parent hbefore => exact h.stay fun _ => hc.notAfter_of_not hbefore

/-- The first child of the item moves up in its place, and only the item and its new children may
be out of order then. -/
theorem OrderedAround.down {items : Vector α n} {i child : Nat} {hi : i < n}
    (h : OrderedAround key? items i hi) (hchild : child < n) (hpos : 0 < child)
    (hparent : (child - 1) / 2 = i)
    (hfirst : ∀ j (hj : j < n), 0 < j → (j - 1) / 2 = i → NotAfter key? items[child] items[j]) :
    OrderedAround key? (items.swap i child) child hchild := by
  constructor
  · intro j hj hjpos hne hnp
    simp only [Vector.getElem_swap]
    by_cases hji : j = i
    · subst hji
      simpa [show ¬ (j - 1) / 2 = j by omega, hnp] using h.children hjpos child hchild hpos hparent
    · by_cases hjp : (j - 1) / 2 = i
      · simpa [hji, hne, hjp] using hfirst j hj hjpos hjp
      · simpa [hji, hne, hjp, hnp] using h.others j hj hjpos hji hjp
  · intro _ j hj hjpos hjp
    have hj' := h.others j hj hjpos (by omega) (by omega)
    simp only [hjp] at hj'
    simpa [Vector.getElem_swap, hparent, show ¬ j = i by omega, show ¬ j = child by omega] using hj'

/-- An item that has sunk to a leaf may rise: it has no children. -/
theorem OrderedAround.leaf {items : Vector α n} {i : Nat} {hi : i < n}
    (h : OrderedAround key? items i hi) (hleaf : n ≤ 2 * i + 1) :
    OrderedExcept key? items i hi where
  others j hj hpos hne := h.others j hj hpos hne (by omega)
  children _ j hj hpos hparent := by omega

/-- An item that sinks ends at a leaf, and only it may be out of order then. The child that moves up
in its place is not after its sibling, as the comparison of the two tells. -/
theorem sink_orderedExcept {items : Vector α n} {i : Nat} {hi : i < n}
    (hc : Compares before key?) (h : OrderedAround key? items i hi) :
    OrderedExcept key? (sink before items i hi).1 (sink before items i hi).2
      (sink before items i hi).2.isLt := by
  fun_induction sink before items i hi with
  | case1 items i hi hleft hright hbefore ih =>
    refine ih (h.down hleft (by omega) (by omega) fun j hj hpos hparent => ?_)
    obtain rfl | rfl : j = 2 * i + 1 ∨ j = 2 * i + 2 := by omega
    · exact .refl _
    · exact hc.notAfter hbefore
  | case2 items i hi hleft hright hbefore ih =>
    refine ih (h.down hright (by omega) (by omega) fun j hj hpos hparent => ?_)
    obtain rfl | rfl : j = 2 * i + 1 ∨ j = 2 * i + 2 := by omega
    · exact hc.notAfter_of_not hbefore
    · exact .refl _
  | case3 items i hi hleft hright ih =>
    refine ih (h.down hleft (by omega) (by omega) fun j hj hpos hparent => ?_)
    obtain rfl : j = 2 * i + 1 := by omega
    exact .refl _
  | case4 items i hi hleaf => exact h.leaf (by omega)

/-- Whatever is put at the root, the heap is in order once it has sunk to a leaf and risen from
there. -/
theorem settle_ordered {items : Vector α n} {hn : 0 < n} (hc : Compares before key?)
    (h : OrderedAround key? items 0 hn) : Ordered key? (settle before items hn) :=
  rise_ordered hc (sink_orderedExcept hc h)

/-! ## Heaps -/

/-- No item of a heap is before its parent. -/
def IsHeap (key? : α → Option κ) (heap : Array α) : Prop := Ordered key? heap.toVector

/-- An ordered vector is a heap. -/
theorem IsHeap.ofVector {items : Vector α n} (h : Ordered key? items) :
    IsHeap key? items.toArray := by
  obtain ⟨heap, rfl⟩ := items
  exact h

theorem IsHeap.empty : IsHeap key? #[] := fun i hi => absurd hi (by simp)

/-- The root of a heap whose items all have keys is not after any of them. -/
theorem IsHeap.root_notAfter {heap : Array α} {root item : α} (h : IsHeap key? heap)
    (hkeys : ∀ other ∈ heap, (key? other).isSome) (hroot : heap[0]? = some root)
    (hitem : item ∈ heap) : NotAfter key? root item := by
  obtain ⟨i, hi, rfl⟩ := Array.mem_iff_getElem.1 hitem
  obtain ⟨_, rfl⟩ := Array.getElem?_eq_some_iff.1 hroot
  exact Ordered.root_notAfter h i hi fun j hj _ => hkeys _ (Array.getElem_mem hj)

/-- A heap with one more item is a heap: the item rises from the last place. -/
theorem IsHeap.push {heap : Array α} (hc : Compares before key?) (h : IsHeap key? heap)
    (item : α) : IsHeap key? (Heap.push before heap item) := by
  have hexcept : OrderedExcept key? (heap.push item).toVector heap.size (by simp) := by
    constructor
    · intro i hi hpos hne
      simp only [Array.size_push] at hi
      simpa [Array.getElem_push, show i < heap.size by omega,
        show (i - 1) / 2 < heap.size by omega] using h i (by omega) hpos
    · intro _ i hi _ hparent
      simp only [Array.size_push] at hi
      omega
  exact .ofVector (rise_ordered hc hexcept)

/-- A heap without its first item is a heap: the last item takes the place of the root and
settles. -/
theorem IsHeap.pop? {heap rest : Array α} {item : α} (hc : Compares before key?)
    (h : IsHeap key? heap) (hpop : Heap.pop? before heap = some (item, rest)) :
    IsHeap key? rest := by
  unfold Heap.pop? at hpop
  split at hpop
  · cases hpop
  · split at hpop
    · cases hpop
      exact .empty
    · cases hpop
      have hsize : 1 < heap.size := by omega
      have haround : OrderedAround key?
          (heap.pop.set 0 heap[heap.size - 1] (pop_pos hsize)).toVector 0
          (Nat.lt_of_lt_of_eq (pop_pos hsize) (Array.size_set ..).symm) := by
        constructor
        · intro i hi hpos _ hparent
          have hi' : i < heap.size := by
            simp at hi
            omega
          simpa [Array.getElem_set, show ¬ 0 = i by omega, show ¬ 0 = (i - 1) / 2 by omega]
            using h i hi' hpos
        · intro hpos
          omega
      exact .ofVector (settle_ordered hc haround)

end

end FactRules.Heap
