import Mathlib.Data.Nat.Notation
import Mathlib.Tactic.SplitIfs

/-! Heaps of mutable objects of one class, named by natural-number references. -/
namespace SignalIOS.Lib

/-- The objects by reference. References from `next` on are not allocated yet. -/
structure Heap (α : Type*) where
  get : ℕ → α
  next : ℕ

namespace Heap

variable {α : Type*}

def empty (a : α) : Heap α := ⟨fun _ => a, 0⟩

/-- Store a new object under the reference `h.next`. -/
def alloc (h : Heap α) (a : α) : Heap α :=
  ⟨fun r => if r = h.next then a else h.get r, h.next + 1⟩

def modify (h : Heap α) (r : ℕ) (f : α → α) : Heap α :=
  ⟨fun r' => if r' = r then f (h.get r') else h.get r', h.next⟩

@[simp] theorem next_empty (a : α) : (empty a).next = 0 := rfl

@[simp] theorem next_alloc (h : Heap α) (a : α) : (h.alloc a).next = h.next + 1 := rfl

@[simp] theorem next_modify (h : Heap α) (r : ℕ) (f : α → α) : (h.modify r f).next = h.next := rfl

theorem get_alloc (h : Heap α) (a : α) (r : ℕ) :
    (h.alloc a).get r = if r = h.next then a else h.get r := rfl

@[simp] theorem get_alloc_self (h : Heap α) (a : α) : (h.alloc a).get h.next = a := by
  simp [get_alloc]

theorem get_alloc_of_lt (h : Heap α) (a : α) {r : ℕ} (hr : r < h.next) :
    (h.alloc a).get r = h.get r := by
  rw [get_alloc, if_neg (Nat.ne_of_lt hr)]

theorem get_modify (h : Heap α) (r : ℕ) (f : α → α) (r' : ℕ) :
    (h.modify r f).get r' = if r' = r then f (h.get r') else h.get r' := rfl

@[simp] theorem get_modify_self (h : Heap α) (r : ℕ) (f : α → α) :
    (h.modify r f).get r = f (h.get r) := by
  simp [get_modify]

theorem get_modify_of_ne (h : Heap α) {r r' : ℕ} (f : α → α) (hr : r' ≠ r) :
    (h.modify r f).get r' = h.get r' := by
  rw [get_modify, if_neg hr]

/-- A projection that `f` leaves alone is left alone by the whole update. -/
theorem get_modify_proj {β : Type*} (π : α → β) (h : Heap α) (r : ℕ) (f : α → α)
    (hf : ∀ a, π (f a) = π a) (r' : ℕ) : π ((h.modify r f).get r') = π (h.get r') := by
  rw [get_modify]
  split_ifs
  · exact hf _
  · rfl

theorem proj_of_eq_modify {β : Type*} (π : α → β) {h h' : Heap α} {r : ℕ} {f : α → α}
    (heq : h' = h.modify r f) (hf : ∀ a, π (f a) = π a) (r' : ℕ) :
    π (h'.get r') = π (h.get r') := by
  rw [heq, get_modify_proj π h r f hf]

@[simp] theorem modify_modify (h : Heap α) (r : ℕ) (f g : α → α) :
    (h.modify r f).modify r g = h.modify r (g ∘ f) := by
  simp only [modify, Heap.mk.injEq, and_true]
  funext r'
  split_ifs <;> rfl

@[simp] theorem modify_id (h : Heap α) (r : ℕ) : h.modify r id = h := by
  simp [modify]

/-- An update that leaves the object as it is changes nothing. -/
theorem modify_eq_self {h : Heap α} {r : ℕ} {f : α → α} (hf : f (h.get r) = h.get r) :
    h.modify r f = h := by
  cases h with
  | mk get next =>
    simp only [modify, Heap.mk.injEq, and_true]
    funext r'
    split_ifs with hr
    · exact hr ▸ hf
    · rfl

theorem modify_congr {h : Heap α} {r : ℕ} {f g : α → α} (hfg : f (h.get r) = g (h.get r)) :
    h.modify r f = h.modify r g := by
  simp only [modify, Heap.mk.injEq, and_true]
  funext r'
  split_ifs with hr
  · exact hr ▸ hfg
  · rfl

/-- Updating the newest object is allocating the updated object. -/
@[simp] theorem modify_alloc_self (h : Heap α) (a : α) (f : α → α) :
    (h.alloc a).modify h.next f = h.alloc (f a) := by
  simp only [modify, alloc, Heap.mk.injEq, and_true]
  funext r
  split_ifs <;> rfl

end Heap
end SignalIOS.Lib
