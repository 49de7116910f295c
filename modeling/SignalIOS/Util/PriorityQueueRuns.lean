import Mathlib.Data.Multiset.ZeroCons
import SignalIOS.Util.PriorityQueue

/-! Priority queues over whole runs. What a queue holds is a multiset, and its replies are those
of one from which a first item is taken. -/
namespace SignalIOS
open SignalIOS.Lib

namespace PriorityQueue
variable {α : Type}

/-- The messages that a queue is sent. -/
inductive Message (α : Type)
  | enqueue (item : α)
  | peek
  | dequeue

/-- The item that the message returns, if it is one that returns any. -/
def send : Message α → Method Exception (PriorityQueue α) (Option α)
  | .enqueue item => do
    enqueue item
    return none
  | .peek => do return some (← peek)
  | .dequeue => do return some (← dequeue)

/-- What the queue holds. -/
def bag (q : PriorityQueue α) : Multiset α := q.items.toList

/-- The comparator is total, and orders by `r`. -/
structure OrdersBy (comparator : α → α → Throws ℤ) (r : α → α → Prop) : Prop where
  compares : Compares comparator r fun _ => True
  trans : ∀ a b c, r a b → r b c → r a c

/-- The item is held, and behind no other one. -/
structure IsFirst (r : α → α → Prop) (items : Multiset α) (a : α) : Prop where
  mem : a ∈ items
  first : ∀ b ∈ items, r a b

/-- The reply of a multiset to a message, and what it holds afterwards. -/
def Replies (r : α → α → Prop) (items : Multiset α) :
    Message α → Throws (Option α) → Multiset α → Prop
  | .enqueue item, reply, items' => reply = .ok none ∧ items' = item ::ₘ items
  | .peek, reply, items' =>
    items' = items ∧
      (items = 0 ∧ reply = .error .badState ∨ ∃ a, IsFirst r items a ∧ reply = .ok (some a))
  | .dequeue, reply, items' =>
    items = 0 ∧ items' = 0 ∧ reply = .error .badState ∨
      ∃ a, IsFirst r items a ∧ reply = .ok (some a) ∧ items = a ::ₘ items'

/-- The replies to messages that are sent one after another. -/
inductive RepliesAll (r : α → α → Prop) :
    Multiset α → List (Message α) → List (Throws (Option α)) → Multiset α → Prop
  | nil (items : Multiset α) : RepliesAll r items [] [] items
  | cons {items items' items'' : Multiset α} {message : Message α} {messages : List (Message α)}
      {reply : Throws (Option α)} {replies : List (Throws (Option α))} :
      Replies r items message reply items' → RepliesAll r items' messages replies items'' →
        RepliesAll r items (message :: messages) (reply :: replies) items''

/-- What is kept by every message: the comparator, and the order of the heap. -/
structure Invariant (r : α → α → Prop) (q : PriorityQueue α) : Prop where
  orders : OrdersBy q.comparator r
  ordered : BinaryHeap.Ordered r q.items

variable {comparator : α → α → Throws ℤ} {r : α → α → Prop} {q : PriorityQueue α}

theorem OrdersBy.total (h : OrdersBy comparator r) (a b : α) : r a b ∨ r b a := by
  obtain ⟨c, -, hle, hge⟩ := h.compares a b trivial trivial
  rcases Int.le_total c 0 with hc | hc
  · exact .inl (hle.mp hc)
  · exact .inr (hge.mp hc)

theorem OrdersBy.isPreorder (h : OrdersBy comparator r) : IsPreorder α r where
  refl a := (h.total a a).elim id id
  trans := h.trans

theorem OrdersBy.compares_on (h : OrdersBy comparator r) (S : α → Prop) :
    Compares comparator r S :=
  fun a b _ _ => h.compares a b trivial trivial

theorem Invariant.isFirst (h : Invariant r q) (h0 : 0 < q.items.size) :
    IsFirst r q.bag q.items[0] := by
  have : IsPreorder α r := h.orders.isPreorder
  constructor
  · exact Multiset.mem_coe.mpr (Array.mem_toList_iff.mpr (Array.getElem_mem h0))
  · intro b hb
    obtain ⟨i, hi, rfl⟩ := Array.getElem_of_mem (Array.mem_toList_iff.mp (Multiset.mem_coe.mp hb))
    exact h.ordered.root i hi h0

theorem OrdersBy.invariant_empty (h : OrdersBy comparator r) :
    Invariant r (priorityQueueAscendingWithComparator comparator) := by
  constructor
  · exact h
  · intro i j hi
    exact absurd hi (Nat.not_lt_zero i)

theorem card_bag (q : PriorityQueue α) : q.bag.card = q.count := by
  rw [bag, Multiset.coe_card, Array.length_toList, count]

theorem bag_eq_zero (h : ¬ 0 < q.items.size) : q.bag = 0 := by
  apply Multiset.card_eq_zero.mp
  rw [card_bag, count]
  omega

/-- An empty queue refuses what asks for an item. -/
theorem run_peek_empty (h : ¬ 0 < q.items.size) : peek.run.run q = (.error .badState, q) := by
  simp only [peek, Method.run_bind, Method.run_get, Method.run_lift, requireState, if_neg h]

theorem run_dequeue_empty (h : ¬ 0 < q.items.size) :
    dequeue.run.run q = (.error .badState, q) := by
  simp only [dequeue, Method.run_bind, Method.run_get, Method.run_lift, requireState, if_neg h]

theorem enqueue_spec (h : Invariant r q) (item : α) :
    ∃ q', (enqueue item).run.run q = (.ok (), q') ∧ Invariant r q' ∧
      q'.bag = item ::ₘ q.bag := by
  have : IsPreorder α r := h.orders.isPreorder
  obtain ⟨items, hrun, hperm, hordered⟩ :=
    run_enqueue (h.orders.compares_on (· ∈ q.items.push item)) h.ordered
  refine ⟨_, hrun, ⟨h.orders, hordered⟩, ?_⟩
  have hlist : items.toList.Perm (item :: q.items.toList) := by
    apply (Array.perm_iff_toList_perm.mp hperm).trans
    rw [Array.toList_push]
    exact List.perm_append_singleton _ _
  exact Multiset.coe_eq_coe.mpr hlist

theorem dequeue_spec (h : Invariant r q) (h0 : 0 < q.items.size) :
    ∃ a q', dequeue.run.run q = (.ok a, q') ∧ Invariant r q' ∧ IsFirst r q.bag a ∧
      q.bag = a ::ₘ q'.bag := by
  have : IsPreorder α r := h.orders.isPreorder
  obtain ⟨items, hrun, hperm, hordered⟩ :=
    run_dequeue (h.orders.compares_on (· ∈ q.items)) h.ordered h0
  exact ⟨_, _, hrun, ⟨h.orders, hordered⟩, h.isFirst h0, Multiset.coe_eq_coe.mpr hperm⟩

/-- The queue replies to one message as the multiset does. -/
theorem send_spec (h : Invariant r q) (message : Message α) :
    Invariant r ((send message).run.run q).2 ∧
      Replies r q.bag message ((send message).run.run q).1 ((send message).run.run q).2.bag := by
  cases message with
  | enqueue item =>
    obtain ⟨q', hrun, hinv, hbag⟩ := enqueue_spec h item
    have hsend : (send (.enqueue item)).run.run q = (.ok none, q') := by
      rw [send, Method.run_bind, hrun]
      rfl
    rw [hsend]
    exact ⟨hinv, rfl, hbag⟩
  | peek =>
    by_cases h0 : 0 < q.items.size
    · have hsend : (send .peek).run.run q = (.ok (some q.items[0]), q) := by
        rw [send, Method.run_bind, run_peek h0]
        rfl
      rw [hsend]
      exact ⟨h, rfl, .inr ⟨_, h.isFirst h0, rfl⟩⟩
    · have hsend : (send .peek).run.run q = (.error .badState, q) := by
        rw [send, Method.run_bind, run_peek_empty h0]
      rw [hsend]
      exact ⟨h, rfl, .inl ⟨bag_eq_zero h0, rfl⟩⟩
  | dequeue =>
    by_cases h0 : 0 < q.items.size
    · obtain ⟨a, q', hrun, hinv, hfirst, hbag⟩ := dequeue_spec h h0
      have hsend : (send .dequeue).run.run q = (.ok (some a), q') := by
        rw [send, Method.run_bind, hrun]
        rfl
      rw [hsend]
      exact ⟨hinv, .inr ⟨a, hfirst, rfl, hbag⟩⟩
    · have hsend : (send .dequeue).run.run q = (.error .badState, q) := by
        rw [send, Method.run_bind, run_dequeue_empty h0]
      rw [hsend]
      exact ⟨h, .inl ⟨bag_eq_zero h0, bag_eq_zero h0, rfl⟩⟩

theorem runAll_send (messages : List (Message α)) (h : Invariant r q) :
    Invariant r (Method.runAll (messages.map send) q).2 ∧
      RepliesAll r q.bag messages (Method.runAll (messages.map send) q).1
        (Method.runAll (messages.map send) q).2.bag := by
  induction messages generalizing q with
  | nil => exact ⟨h, .nil _⟩
  | cons message messages ih =>
    obtain ⟨hinv, hreply⟩ := send_spec h message
    obtain ⟨hinv', hreplies⟩ := ih hinv
    exact ⟨hinv', .cons hreply hreplies⟩

/-- All items are taken, in order. -/
theorem runAll_dequeue (n : ℕ) (h : Invariant r q) (hn : q.count = n) :
    ∃ items : List α, (Method.runAll (List.replicate n dequeue) q).1 = items.map .ok ∧
      (items : Multiset α) = q.bag ∧ items.Pairwise r ∧
      (Method.runAll (List.replicate n dequeue) q).2.count = 0 := by
  induction n generalizing q with
  | zero =>
    have hempty : ¬ 0 < q.items.size := by
      rw [count] at hn
      omega
    exact ⟨[], rfl, (bag_eq_zero hempty).symm, .nil, hn⟩
  | succ n ih =>
    have h0 : 0 < q.items.size := by
      rw [count] at hn
      omega
    obtain ⟨a, q', hrun, hinv, hfirst, hbag⟩ := dequeue_spec h h0
    have hcount : q'.count = n := by
      have hcard := congrArg Multiset.card hbag
      rw [Multiset.card_cons, card_bag, card_bag] at hcard
      omega
    obtain ⟨items, hreplies, hitems, hpairwise, hend⟩ := ih hinv hcount
    refine ⟨a :: items, ?_, ?_, ?_, ?_⟩
    · rw [List.replicate_succ, Method.runAll_cons, hrun, hreplies]
      rfl
    · rw [hbag, ← hitems]
      rfl
    · refine List.pairwise_cons.mpr ⟨fun b hb => ?_, hpairwise⟩
      have hmem : b ∈ q.bag := by
        rw [hbag, ← hitems]
        exact Multiset.mem_cons_of_mem hb
      exact hfirst.first b hmem
    · rw [List.replicate_succ, Method.runAll_cons, hrun, hend]

/-- Messages in any order are replied to as by a multiset. The heap is in order after them, and
what it holds then comes out in order. -/
theorem priorityQueue_spec (hcomparator : OrdersBy comparator r) (messages : List (Message α)) :
    let outcome := Method.runAll (messages.map send)
      (priorityQueueAscendingWithComparator comparator)
    RepliesAll r 0 messages outcome.1 outcome.2.bag ∧
      BinaryHeap.Ordered r outcome.2.items ∧
      ∃ items : List α,
        (Method.runAll (List.replicate outcome.2.count dequeue) outcome.2).1 = items.map .ok ∧
          (items : Multiset α) = outcome.2.bag ∧ items.Pairwise r ∧
          (Method.runAll (List.replicate outcome.2.count dequeue) outcome.2).2.count = 0 := by
  obtain ⟨hinv, hreplies⟩ := runAll_send messages hcomparator.invariant_empty
  exact ⟨hreplies, hinv.ordered, runAll_dequeue _ hinv rfl⟩

/-- Numbers by their difference. -/
theorem ordersBy_sub : OrdersBy (fun a b : ℤ => .ok (a - b)) (· ≤ ·) := by
  constructor
  · intro a b _ _
    exact ⟨a - b, rfl, by omega, by omega⟩
  · intro a b c
    exact Int.le_trans

/-- Three numbers, two of them equal. -/
theorem priorityQueue_spec_sample :
    OrdersBy (fun a b : ℤ => .ok (a - b)) (· ≤ ·) ∧
      let outcome := Method.runAll
        (([.enqueue 3, .enqueue 1, .peek, .enqueue 3, .dequeue] : List (Message ℤ)).map send)
        (priorityQueueAscendingWithComparator fun a b => .ok (a - b))
      RepliesAll (· ≤ ·) 0 [.enqueue 3, .enqueue 1, .peek, .enqueue 3, .dequeue] outcome.1
        outcome.2.bag :=
  ⟨ordersBy_sub, (priorityQueue_spec ordersBy_sub _).1⟩

end PriorityQueue
end SignalIOS
