import Mathlib.Data.Int.Notation
import SignalIOS.Lib.BinaryHeap
import SignalIOS.Lib.Methods
import SignalIOS.Util.NSData

/-! Priority queues, which compare their items by a block. -/
namespace SignalIOS
open SignalIOS.Lib

/-- The messages of `NSMutableArray` that a priority queue sends. -/
def objectAtIndex {α : Type} (items : Array α) (index : ℕ) : Throws α :=
  match items[index]? with
  | some item => .ok item
  | none => .error .nsRangeException

def setObjectAtIndexedSubscript {α : Type} (items : Array α) (item : α) (index : ℕ) :
    Throws (Array α) :=
  if h : index < items.size then .ok (items.set index item)
  else if index = items.size then .ok (items.push item)
  else .error .nsRangeException

/-- `comparator` returns an `NSComparisonResult`, by its sign, or raises. -/
structure PriorityQueue (α : Type) where
  comparator : α → α → Throws ℤ
  items : Array α

namespace PriorityQueue
variable {α : Type}

def priorityQueueAscendingWithComparator (comparator : α → α → Throws ℤ) : PriorityQueue α :=
  ⟨comparator, #[]⟩

/-- `items[index]`. -/
def itemAt (index : ℕ) : Method Exception (PriorityQueue α) α := do
  objectAtIndex (← get).items index

/-- `[items setObject:item atIndexedSubscript:index]`. -/
def setItem (item : α) (index : ℕ) : Method Exception (PriorityQueue α) Unit := do
  let items ← setObjectAtIndexedSubscript (← get).items item index
  modify fun q => { q with items }

def compare (item other : α) : Method Exception (PriorityQueue α) ℤ := do
  (← get).comparator item other

/-- The loop of `enqueue:`. -/
def moveUp (item : α) (curIndex : ℕ) : Method Exception (PriorityQueue α) Unit := do
  if _h : curIndex > 0 then
    let parentIndex := (curIndex - 1) >>> 1
    let parentItem ← itemAt parentIndex
    if (← compare item parentItem) ≥ 0 then
      return
    setItem parentItem curIndex
    setItem item parentIndex
    moveUp item parentIndex
termination_by curIndex
decreasing_by
  rw [Nat.shiftRight_eq_div_pow]
  omega

def enqueue (item : α) : Method Exception (PriorityQueue α) Unit := do
  let curIndex := (← get).items.size
  modify fun q => { q with items := q.items.push item }
  moveUp item curIndex

def peek : Method Exception (PriorityQueue α) α := do
  requireState ((← get).items.size > 0)
  itemAt 0

/-- The loop of `dequeue`, which pulls up the smaller child. Its result is where the hole is in the
end. -/
def moveHoleDown (endangeredItem : α) (endangeredIndex i : ℕ) :
    Method Exception (PriorityQueue α) ℕ := do
  let childIndex1 := i * 2 + 1
  let childIndex2 := i * 2 + 2
  if _h : childIndex1 ≥ endangeredIndex then
    return i
  else
    let comparison ← compare (← itemAt childIndex1) (← itemAt childIndex2)
    let smallerChildIndex := if comparison ≤ 0 then childIndex1 else childIndex2
    let smallerChild ← itemAt smallerChildIndex
    if (← compare endangeredItem smallerChild) ≤ 0 then
      return i
    else
      setItem smallerChild i
      moveHoleDown endangeredItem endangeredIndex smallerChildIndex
termination_by endangeredIndex - i
decreasing_by
  split <;> omega

def dequeue : Method Exception (PriorityQueue α) α := do
  requireState ((← get).items.size > 0)
  let result ← itemAt 0
  let endangeredIndex := (← get).items.size - 1
  let endangeredItem ← itemAt endangeredIndex
  let i ← moveHoleDown endangeredItem endangeredIndex 0
  setItem endangeredItem i
  modify fun q => { q with items := q.items.pop }
  return result

def count (q : PriorityQueue α) : ℕ := q.items.size

/-- On the items with `S`, the comparator computes `r`, in both directions, and does not raise. -/
def Compares (comparator : α → α → Throws ℤ) (r : α → α → Prop) (S : α → Prop) : Prop :=
  ∀ a b, S a → S b → ∃ c, comparator a b = .ok c ∧ (c ≤ 0 ↔ r a b) ∧ (0 ≤ c ↔ r b a)

variable {q : PriorityQueue α} {r : α → α → Prop}

theorem run_itemAt {index : ℕ} (h : index < q.items.size) :
    (itemAt index).run.run q = (.ok q.items[index], q) := by
  simp only [itemAt, objectAtIndex, Method.run_bind, Method.run_get, Method.run_lift,
    Array.getElem?_eq_getElem h]

theorem run_setItem {index : ℕ} (h : index < q.items.size) (item : α) :
    (setItem item index).run.run q = (.ok (), { q with items := q.items.set index item }) := by
  simp only [setItem, setObjectAtIndexedSubscript, Method.run_bind, Method.run_get,
    Method.run_lift, Method.run_modify, dif_pos h]

theorem run_compare {a b : α} {c : ℤ} (h : q.comparator a b = .ok c) :
    (compare a b).run.run q = (.ok c, q) := by
  simp only [compare, Method.run_bind, Method.run_get, Method.run_lift, h]

/-- Moving an item up orders the heap, by exchanges. -/
theorem run_moveUp [IsTrans α r] {item : α} {curIndex : ℕ}
    (hcompares : Compares q.comparator r (· ∈ q.items)) (hcur : curIndex < q.items.size)
    (hitem : q.items[curIndex] = item) (h : BinaryHeap.UpOrdered r q.items curIndex) :
    ∃ items, (moveUp item curIndex).run.run q = (.ok (), { q with items }) ∧
      items.Perm q.items ∧ BinaryHeap.Ordered r items := by
  induction curIndex using Nat.strongRecOn generalizing q with
  | ind curIndex ih =>
    by_cases h0 : curIndex > 0
    · let parentIndex := BinaryHeap.parent curIndex
      have hlt : parentIndex < curIndex := BinaryHeap.parent_lt h0
      have hp : parentIndex < q.items.size := by omega
      have hindex : (curIndex - 1) >>> 1 = parentIndex := Nat.shiftRight_eq_div_pow (curIndex - 1) 1
      have hmem : item ∈ q.items := hitem ▸ Array.getElem_mem hcur
      obtain ⟨c, hc, hle, hge⟩ := hcompares item q.items[parentIndex] hmem (Array.getElem_mem hp)
      rw [moveUp, dif_pos h0]
      simp only [hindex, Method.run_bind, run_itemAt hp, run_compare hc]
      by_cases hcomparison : c ≥ 0
      · refine ⟨q.items, by rw [if_pos hcomparison]; rfl, .refl _, h.ordered ?_⟩
        intro p _ hp' _ hparent
        subst hparent
        rw [hitem]
        exact hge.mp hcomparison
      · have hbefore : r q.items[curIndex] q.items[parentIndex] := by
          rw [hitem]
          exact hle.mp (by omega)
        let items := q.items.swap curIndex parentIndex
        have hswap : (q.items.set curIndex q.items[parentIndex]).set parentIndex item
            (by rw [Array.size_set]; exact hp) = items := by
          rw [← hitem]
          rfl
        have hperm : items.Perm q.items := Array.swap_perm hcur hp
        obtain ⟨items', hrun, hperm', hordered⟩ := ih parentIndex hlt (q := { q with items })
          (fun a b ha hb => hcompares a b (hperm.mem_iff.mp ha) (hperm.mem_iff.mp hb))
          (by rw [Array.size_swap]; exact hp) (by rw [Array.getElem_swap_right, hitem])
          (h.swap hcur hp h0 rfl hbefore)
        refine ⟨items', ?_, hperm'.trans hperm, hordered⟩
        have hset : parentIndex < (q.items.set curIndex q.items[parentIndex]).size := by
          rw [Array.size_set]
          exact hp
        simp only [if_neg hcomparison, Method.run_bind, run_setItem hcur,
          run_setItem (q := { q with items := q.items.set curIndex q.items[parentIndex] }) hset,
          hswap, hrun]
    · refine ⟨q.items, ?_, .refl _, ?_⟩
      · rw [moveUp, dif_neg h0]
        rfl
      · exact h.ordered fun p _ _ h0' => absurd h0' h0

/-- An item is added, and the order is kept. -/
theorem run_enqueue [IsTrans α r] {item : α}
    (hcompares : Compares q.comparator r (· ∈ q.items.push item))
    (h : BinaryHeap.Ordered r q.items) :
    ∃ items, (enqueue item).run.run q = (.ok (), { q with items }) ∧
      items.Perm (q.items.push item) ∧ BinaryHeap.Ordered r items := by
  have hcur : q.items.size < (q.items.push item).size := by
    rw [Array.size_push]
    omega
  have hitem : (q.items.push item)[q.items.size] = item := Array.getElem_push_eq
  obtain ⟨items, hrun, hperm, hordered⟩ := run_moveUp
    (q := { q with items := q.items.push item }) hcompares hcur hitem (h.push item)
  refine ⟨items, ?_, hperm, hordered⟩
  simp only [enqueue, Method.run_bind, Method.run_get, Method.run_modify, hrun]

theorem run_peek (h : 0 < q.items.size) : peek.run.run q = (.ok q.items[0], q) := by
  simp only [peek, Method.run_bind, Method.run_get, Method.run_lift, requireState,
    if_pos (show q.items.size > 0 from h), run_itemAt h]

/-- Of the two children, the code takes one that is not behind the other. -/
theorem smallerChild_spec [IsPreorder α r] {items : Array α} {i : ℕ} {c : ℤ}
    (h2 : i * 2 + 2 < items.size) (hle : c ≤ 0 ↔ r items[i * 2 + 1] items[i * 2 + 2])
    (hge : 0 ≤ c ↔ r items[i * 2 + 2] items[i * 2 + 1]) :
    ∃ smaller, (if c ≤ 0 then i * 2 + 1 else i * 2 + 2) = smaller ∧
      ∃ hs : smaller < items.size, 0 < smaller ∧ BinaryHeap.parent smaller = i ∧
        ∀ j (hj : j < items.size), 0 < j → BinaryHeap.parent j = i → r items[smaller] items[j] := by
  by_cases hc : c ≤ 0
  · refine ⟨i * 2 + 1, if_pos hc, by omega, by omega, ?_, ?_⟩
    · rw [BinaryHeap.parent_eq_iff (by omega)]
      omega
    · intro j hj h0 hparent
      have hchild := (BinaryHeap.parent_eq_iff h0).mp hparent
      rw [Nat.mul_comm 2 i] at hchild
      rcases hchild with rfl | rfl
      · exact refl_of r _
      · exact hle.mp hc
  · refine ⟨i * 2 + 2, if_neg hc, h2, by omega, ?_, ?_⟩
    · rw [BinaryHeap.parent_eq_iff (by omega)]
      omega
    · intro j hj h0 hparent
      have hchild := (BinaryHeap.parent_eq_iff h0).mp hparent
      rw [Nat.mul_comm 2 i] at hchild
      rcases hchild with rfl | rfl
      · exact hge.mp (by omega)
      · exact refl_of r _

/-- The hole ends where the endangered item can take its place. -/
theorem run_moveHoleDown [IsPreorder α r] {endangeredItem : α} {endangeredIndex i : ℕ}
    (hcompares : Compares q.comparator r (· ∈ q.items))
    (hsize : q.items.size = endangeredIndex + 1)
    (hlast : q.items[endangeredIndex] = endangeredItem) (hi : i ≤ endangeredIndex)
    (h : BinaryHeap.DownOrdered r (BinaryHeap.filled q.items i endangeredItem) i) :
    ∃ i' items, (moveHoleDown endangeredItem endangeredIndex i).run.run q =
        (.ok i', { q with items }) ∧ i' < items.size ∧
      (BinaryHeap.filled items i' endangeredItem).Perm
        (BinaryHeap.filled q.items i endangeredItem) ∧
      BinaryHeap.Ordered r (BinaryHeap.filled items i' endangeredItem) := by
  generalize hn : endangeredIndex - i = n
  induction n using Nat.strongRecOn generalizing q i with
  | ind n ih =>
    by_cases hbottom : i * 2 + 1 ≥ endangeredIndex
    · refine ⟨i, q.items, ?_, by omega, .refl _, h.ordered ?_⟩
      · rw [moveHoleDown, dif_pos hbottom]
        rfl
      · intro j hj _ h0 hparent
        rw [BinaryHeap.size_filled] at hj
        have hchild := (BinaryHeap.parent_eq_iff h0).mp hparent
        omega
    · have h1 : i * 2 + 1 < q.items.size := by omega
      have h2 : i * 2 + 2 < q.items.size := by omega
      obtain ⟨c, hc, hle, hge⟩ := hcompares q.items[i * 2 + 1] q.items[i * 2 + 2]
        (Array.getElem_mem h1) (Array.getElem_mem h2)
      rw [moveHoleDown, dif_neg hbottom]
      simp only [Method.run_bind, run_itemAt h1, run_itemAt h2, run_compare hc]
      obtain ⟨smaller, hsmaller, hs, hs0, hsparent, hmin⟩ := smallerChild_spec h2 hle hge
      simp only [hsmaller]
      obtain ⟨d, hd, hdle, hdge⟩ := hcompares endangeredItem q.items[smaller]
        (hlast ▸ Array.getElem_mem _) (Array.getElem_mem hs)
      simp only [run_itemAt hs, run_compare hd]
      by_cases hstop : d ≤ 0
      · refine ⟨i, q.items, by rw [if_pos hstop]; rfl, by omega, .refl _,
          h.filled_ordered (by omega) fun j hj h0 hparent => ?_⟩
        exact trans_of r (hdle.mp hstop) (hmin j (by omega) h0 hparent)
      · have hbefore : r q.items[smaller] endangeredItem := hdge.mp (by omega)
        have hne : smaller ≠ endangeredIndex := by
          intro heq
          subst heq
          rw [hlast] at hdle
          exact hstop (hdle.mpr (refl_of r _))
        have hslt : smaller < endangeredIndex := by omega
        have hisize : i < q.items.size := by omega
        have hlt : i < smaller := hsparent ▸ BinaryHeap.parent_lt hs0
        let q' : PriorityQueue α := { q with items := q.items.set i q.items[smaller] }
        have hmem : ∀ a ∈ q'.items, a ∈ q.items := by
          intro a ha
          rcases Array.mem_or_eq_of_mem_set (w := hisize) ha with ha | rfl
          · exact ha
          · exact Array.getElem_mem hs
        obtain ⟨hdown, hmoved⟩ := h.moveHole (c := smaller) (by omega) (by omega) hs0 hsparent
          hbefore fun j hj h0 hparent => hmin j (by omega) h0 hparent
        obtain ⟨i', items, hrun, hi', hperm, hordered⟩ := ih (endangeredIndex - smaller) (by omega)
          (q := q') (fun a b ha hb => hcompares a b (hmem a ha) (hmem b hb))
          (by rw [Array.size_set]; exact hsize)
          (by rw [Array.getElem_set_ne _ _ (by omega)]; exact hlast) (by omega) hdown rfl
        refine ⟨i', items, ?_, hi', hperm.trans hmoved, hordered⟩
        simp only [if_neg hstop, Method.run_bind, run_setItem hisize, q', hrun]

/-- A first item is removed, and the order is kept. -/
theorem run_dequeue [IsPreorder α r] (hcompares : Compares q.comparator r (· ∈ q.items))
    (h : BinaryHeap.Ordered r q.items) (h0 : 0 < q.items.size) :
    ∃ items, dequeue.run.run q = (.ok q.items[0], { q with items }) ∧
      q.items.toList.Perm (q.items[0] :: items.toList) ∧ BinaryHeap.Ordered r items := by
  have hlt : q.items.size - 1 < q.items.size := by omega
  have hsize : q.items.size = q.items.size - 1 + 1 := by omega
  obtain ⟨i, items, hrun, hi, hperm, hordered⟩ := run_moveHoleDown hcompares hsize rfl
    (Nat.zero_le (q.items.size - 1)) (h.filled q.items[q.items.size - 1])
  refine ⟨BinaryHeap.filled items i q.items[q.items.size - 1], ?_, ?_, hordered⟩
  · have hset : items.setIfInBounds i q.items[q.items.size - 1] =
        items.set i q.items[q.items.size - 1] := dif_pos hi
    simp only [dequeue, Method.run_bind, Method.run_get, Method.run_lift, requireState,
      if_pos (show q.items.size > 0 from h0), run_itemAt h0, run_itemAt hlt, hrun,
      run_setItem (q := { q with items }) hi, Method.run_modify, Method.run_pure,
      BinaryHeap.filled, hset]
  · exact (BinaryHeap.perm_filled h0).trans (.cons _ (Array.perm_iff_toList_perm.mp hperm.symm))

end PriorityQueue
end SignalIOS
