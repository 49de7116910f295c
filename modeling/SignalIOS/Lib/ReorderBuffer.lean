import Mathlib.Data.Int.Notation
import Mathlib.Data.List.Sort
import Mathlib.Algebra.Order.Group.Multiset
import Mathlib.Tactic.Abel

/-! Buffers that put numbered entries back into their order, and give up on those that are late.
Numbers are unbounded or wrap around, as a sequencing says. -/
namespace SignalIOS.Lib

/-- How the entries are numbered, and the limits of a buffer of them. -/
structure Sequencing (ε ν : Type) where
  number : ε → ν
  distance : ν → ν → ℤ
  next : ν → ν
  ahead : ℤ
  spanLimit : ℕ
  capacity : ℕ

/-- As far as a buffer looks ahead, distances add up. -/
structure Sequencing.Lawful {ε ν : Type} (N : Sequencing ε ν) : Prop where
  distance_self : ∀ a, N.distance a a = 0
  distance_sub : ∀ {a b c}, 0 ≤ N.distance a b → N.distance a b ≤ N.distance a c →
    N.distance a c ≤ N.ahead → N.distance b c = N.distance a c - N.distance a b
  distance_next : ∀ {a b c}, 0 ≤ N.distance a b → N.distance a b < N.distance a c →
    N.distance a c ≤ N.ahead → N.distance (N.next b) c = N.distance a c - N.distance a b - 1
  distance_inj : ∀ {a b c}, N.distance a b = N.distance a c → b = c
  ahead : 0 ≤ N.ahead
  capacity : 0 < N.capacity
  spanLimit : 0 < N.spanLimit

/-- Entries from `head` on are waited for. While none of them can be taken, the span of numbers
that can be taken grows, until the buffer takes whatever comes. -/
structure ReorderBuffer (ε ν : Type) where
  head : ν
  span : ℕ
  queued : List ε

namespace ReorderBuffer

inductive Event (ε : Type)
  | accepted (entry : ε)
  | synchronized (dropped : List ε)
  | discarded (entry : ε)
  | dequeued (entry : ε)

inductive Input (ε : Type)
  | arrival (entry : ε)
  | request

variable {ε ν : Type}

/-- Neither is behind the other, seen from `head`. -/
def Before (N : Sequencing ε ν) (head : ν) (x y : ε) : Prop :=
  N.distance head (N.number x) ≤ N.distance head (N.number y)

instance (N : Sequencing ε ν) (head : ν) : DecidableRel (Before N head) :=
  fun x y => Int.decLe (N.distance head (N.number x)) (N.distance head (N.number y))

def request (N : Sequencing ε ν) (b : ReorderBuffer ε ν) : List (Event ε) × ReorderBuffer ε ν :=
  if b.span > N.spanLimit then ([], b)
  else
    match b.queued with
    | [] => ([], { b with span := b.span + 1 })
    | first :: rest =>
      if N.distance b.head (N.number first) < b.span then
        ([.dequeued first], ⟨N.next (N.number first), 1, rest⟩)
      else ([], { b with span := b.span + 1 })

/-- What can happen when an entry is requested. -/
theorem request_cases (N : Sequencing ε ν) (b : ReorderBuffer ε ν) :
    (b.span > N.spanLimit ∧ request N b = ([], b)) ∨
    (b.span ≤ N.spanLimit ∧
      (∀ first ∈ b.queued.head?, b.span ≤ N.distance b.head (N.number first)) ∧
      request N b = ([], { b with span := b.span + 1 })) ∨
    (b.span ≤ N.spanLimit ∧ ∃ first rest, b.queued = first :: rest ∧
      N.distance b.head (N.number first) < b.span ∧
      request N b = ([.dequeued first], ⟨N.next (N.number first), 1, rest⟩)) := by
  unfold request
  by_cases hspan : b.span > N.spanLimit
  · left
    exact ⟨hspan, if_pos hspan⟩
  · right
    rw [if_neg hspan]
    cases b.queued with
    | nil =>
      left
      exact ⟨by omega, by simp, rfl⟩
    | cons first rest =>
      by_cases hnear : N.distance b.head (N.number first) < b.span
      · right
        exact ⟨by omega, first, rest, rfl, hnear, if_pos hnear⟩
      · left
        exact ⟨by omega, by simpa using hnear, if_neg hnear⟩

/-- The entry is near enough, and not there yet. -/
def Fits (N : Sequencing ε ν) (b : ReorderBuffer ε ν) (entry : ε) : Prop :=
  0 ≤ N.distance b.head (N.number entry) ∧ N.distance b.head (N.number entry) ≤ N.ahead ∧
    ∀ x ∈ b.queued, N.number x ≠ N.number entry

/-- What holds of a buffer between the steps. -/
structure WellFormed (N : Sequencing ε ν) (b : ReorderBuffer ε ν) : Prop where
  sorted : b.queued.Pairwise fun x y =>
    N.distance b.head (N.number x) < N.distance b.head (N.number y)
  within : ∀ x ∈ b.queued, 0 ≤ N.distance b.head (N.number x) ∧
    N.distance b.head (N.number x) ≤ N.ahead
  length : b.queued.length ≤ N.capacity
  span : 1 ≤ b.span ∧ b.span ≤ N.spanLimit + 1

instance (N : Sequencing ε ν) (head : ν) : Std.Total (Before N head) :=
  ⟨fun _ _ => Int.le_total _ _⟩

instance (N : Sequencing ε ν) (head : ν) : IsTrans ε (Before N head) :=
  ⟨fun _ _ _ => Int.le_trans⟩

instance (N : Sequencing ε ν) (head : ν) : IsPreorder ε (Before N head) where
  refl _ := Int.le_refl _

/-- An entry that fits is sorted in. -/
theorem insert_sorted {N : Sequencing ε ν} (hN : N.Lawful) {b : ReorderBuffer ε ν} {entry : ε}
    (hsorted : b.queued.Pairwise fun x y =>
      N.distance b.head (N.number x) < N.distance b.head (N.number y))
    (hwithin : ∀ x ∈ b.queued, 0 ≤ N.distance b.head (N.number x) ∧
      N.distance b.head (N.number x) ≤ N.ahead)
    (hfits : Fits N b entry) :
    (b.queued.orderedInsert (Before N b.head) entry).Pairwise (fun x y =>
        N.distance b.head (N.number x) < N.distance b.head (N.number y)) ∧
      ∀ x ∈ b.queued.orderedInsert (Before N b.head) entry,
        0 ≤ N.distance b.head (N.number x) ∧ N.distance b.head (N.number x) ≤ N.ahead := by
  have hperm := List.perm_orderedInsert (Before N b.head) entry b.queued
  constructor
  · have hinserted : (b.queued.orderedInsert (Before N b.head) entry).Pairwise (Before N b.head) :=
      List.Pairwise.orderedInsert entry _ (hsorted.imp Int.le_of_lt)
    have hdistinct : (entry :: b.queued).Pairwise fun x y =>
        N.distance b.head (N.number x) ≠ N.distance b.head (N.number y) := by
      rw [List.pairwise_cons]
      constructor
      · intro x hx heq
        exact hfits.2.2 x hx (hN.distance_inj heq).symm
      · exact hsorted.imp Int.ne_of_lt
    have hdistinct' := (hperm.pairwise_iff (fun hne heq => hne heq.symm)).mpr hdistinct
    exact (hinserted.and hdistinct').imp Int.lt_iff_le_and_ne.mpr
  · intro x hx
    rcases List.mem_cons.mp (hperm.mem_iff.mp hx) with rfl | hx
    · exact ⟨hfits.1, hfits.2.1⟩
    · exact hwithin x hx

theorem WellFormed.request {N : Sequencing ε ν} (hN : N.Lawful) {b : ReorderBuffer ε ν}
    (h : WellFormed N b) : WellFormed N (request N b).2 := by
  have hspan := h.span
  rcases request_cases N b with ⟨-, hrequest⟩ | ⟨hlimit, -, hrequest⟩ |
    ⟨-, first, rest, hqueued, -, hrequest⟩
  · rw [hrequest]
    exact h
  · rw [hrequest]
    exact ⟨h.sorted, h.within, h.length, Nat.le_add_left 1 _, Nat.succ_le_succ hlimit⟩
  · rw [hrequest]
    have hsorted := h.sorted
    have hlength := h.length
    rw [hqueued, List.pairwise_cons] at hsorted
    rw [hqueued, List.length_cons] at hlength
    have hfirst := (h.within first (by simp [hqueued])).1
    have hdistance : ∀ x ∈ rest, N.distance (N.next (N.number first)) (N.number x) =
        N.distance b.head (N.number x) - N.distance b.head (N.number first) - 1 := by
      intro x hx
      exact hN.distance_next hfirst (hsorted.1 x hx) (h.within x (by simp [hqueued, hx])).2
    have hlength' : rest.length ≤ N.capacity := by omega
    refine ⟨?_, ?_, hlength', Nat.le_refl 1, Nat.le_add_left 1 _⟩
    · refine hsorted.2.imp_of_mem ?_
      intro x y hx hy hlt
      simp only [hdistance x hx, hdistance y hy]
      omega
    · intro x hx
      have hlt := hsorted.1 x hx
      have hxwithin := h.within x (by simp [hqueued, hx])
      simp only [hdistance x hx]
      omega

variable [DecidableEq ν]

instance (N : Sequencing ε ν) (b : ReorderBuffer ε ν) (entry : ε) : Decidable (Fits N b entry) :=
  inferInstanceAs (Decidable (_ ∧ _ ∧ _))

def arrive (N : Sequencing ε ν) (b : ReorderBuffer ε ν) (entry : ε) :
    List (Event ε) × ReorderBuffer ε ν :=
  if b.span > N.spanLimit then
    ([.synchronized b.queued, .accepted entry], ⟨N.number entry, 1, [entry]⟩)
  else if Fits N b entry then
    match b.queued.orderedInsert (Before N b.head) entry with
    | first :: second :: rest =>
      if rest.length + 2 ≤ N.capacity then
        ([.accepted entry], { b with queued := first :: second :: rest })
      else ([.accepted entry, .discarded first], ⟨N.number second, 1, second :: rest⟩)
    | queued => ([.accepted entry], { b with queued })
  else ([], b)

def step (N : Sequencing ε ν) (b : ReorderBuffer ε ν) :
    Input ε → List (Event ε) × ReorderBuffer ε ν
  | .arrival entry => arrive N b entry
  | .request => request N b

/-- The events of each step, and the buffer after the last. -/
def run (N : Sequencing ε ν) : ReorderBuffer ε ν → List (Input ε) →
    List (List (Event ε)) × ReorderBuffer ε ν
  | b, [] => ([], b)
  | b, input :: inputs =>
    let result := step N b input
    let rest := run N result.2 inputs
    (result.1 :: rest.1, rest.2)

/-- What can happen when an entry arrives. -/
theorem arrive_cases (N : Sequencing ε ν) (b : ReorderBuffer ε ν) (entry : ε) :
    (b.span > N.spanLimit ∧ arrive N b entry =
      ([.synchronized b.queued, .accepted entry], ⟨N.number entry, 1, [entry]⟩)) ∨
    (b.span ≤ N.spanLimit ∧ ¬ Fits N b entry ∧ arrive N b entry = ([], b)) ∨
    (b.span ≤ N.spanLimit ∧ Fits N b entry ∧
      ∃ queued, queued = b.queued.orderedInsert (Before N b.head) entry ∧
        ((queued.length ≤ max 1 N.capacity ∧
            arrive N b entry = ([.accepted entry], { b with queued })) ∨
          ∃ first second rest, queued = first :: second :: rest ∧ N.capacity < queued.length ∧
            arrive N b entry =
              ([.accepted entry, .discarded first], ⟨N.number second, 1, second :: rest⟩))) := by
  unfold arrive
  by_cases hspan : b.span > N.spanLimit
  · left
    exact ⟨hspan, if_pos hspan⟩
  · right
    rw [if_neg hspan]
    by_cases hfits : Fits N b entry
    · right
      refine ⟨by omega, hfits, _, rfl, ?_⟩
      rw [if_pos hfits]
      cases b.queued.orderedInsert (Before N b.head) entry with
      | nil => exact .inl ⟨Nat.zero_le _, rfl⟩
      | cons first queued =>
        cases queued with
        | nil => exact .inl ⟨Nat.le_max_left 1 _, rfl⟩
        | cons second rest =>
          by_cases hcapacity : rest.length + 2 ≤ N.capacity
          · left
            exact ⟨Nat.le_trans hcapacity (Nat.le_max_right 1 _), if_pos hcapacity⟩
          · right
            refine ⟨first, second, rest, rfl, ?_, if_neg hcapacity⟩
            simp only [List.length_cons]
            omega
    · left
      exact ⟨by omega, hfits, if_neg hfits⟩

theorem WellFormed.arrive {N : Sequencing ε ν} (hN : N.Lawful) {b : ReorderBuffer ε ν}
    (h : WellFormed N b) (entry : ε) : WellFormed N (arrive N b entry).2 := by
  have hcapacity := hN.capacity
  rcases arrive_cases N b entry with
    ⟨-, harrive⟩ | ⟨-, -, harrive⟩ | ⟨-, hfits, queued, hqueued, hcase⟩
  · rw [harrive]
    refine ⟨List.pairwise_singleton _ _, ?_, hcapacity, Nat.le_refl 1, Nat.le_add_left 1 _⟩
    intro x hx
    obtain rfl := List.mem_singleton.mp hx
    have hahead := hN.ahead
    simp only [hN.distance_self]
    omega
  · rw [harrive]
    exact h
  · obtain ⟨hsorted, hwithin⟩ := insert_sorted hN h.sorted h.within hfits
    rw [← hqueued] at hsorted hwithin
    rcases hcase with ⟨hlength, harrive⟩ | ⟨first, second, rest, rfl, -, harrive⟩
    · rw [harrive]
      have hlength' : queued.length ≤ N.capacity := by omega
      exact ⟨hsorted, hwithin, hlength', h.span⟩
    · rw [harrive]
      have hinsert : (second :: rest).length = b.queued.length := by
        have hlength := congrArg List.length hqueued
        rw [List.orderedInsert_length, List.length_cons] at hlength
        omega
      obtain ⟨-, hrest⟩ := List.pairwise_cons.mp hsorted
      have hsecond := hwithin second (by simp)
      have hdistance : ∀ x ∈ second :: rest, N.distance (N.number second) (N.number x) =
          N.distance b.head (N.number x) - N.distance b.head (N.number second) := by
        intro x hx
        apply hN.distance_sub hsecond.1 ?_ (hwithin x (List.mem_cons_of_mem _ hx)).2
        rcases List.mem_cons.mp hx with rfl | hx
        · exact Int.le_refl _
        · exact Int.le_of_lt ((List.pairwise_cons.mp hrest).1 x hx)
      refine ⟨?_, ?_, ?_, Nat.le_refl 1, Nat.le_add_left 1 _⟩
      · refine hrest.imp_of_mem ?_
        intro x y hx hy hlt
        simp only [hdistance x hx, hdistance y hy]
        omega
      · intro x hx
        have hxwithin := hwithin x (List.mem_cons_of_mem _ hx)
        simp only [hdistance x hx]
        rcases List.mem_cons.mp hx with rfl | hx'
        · omega
        · have hlt := (List.pairwise_cons.mp hrest).1 x hx'
          omega
      · exact hinsert ▸ h.length

theorem WellFormed.step {N : Sequencing ε ν} (hN : N.Lawful) {b : ReorderBuffer ε ν}
    (h : WellFormed N b) (input : Input ε) : WellFormed N (step N b input).2 := by
  cases input with
  | arrival entry => exact h.arrive hN entry
  | request => exact h.request hN

/-- The entries that have been accepted, and those that have left the buffer. -/
def accepted (events : List (Event ε)) : List ε :=
  events.filterMap fun
    | .accepted entry => some entry
    | _ => none

def dequeued (events : List (Event ε)) : List ε :=
  events.filterMap fun
    | .dequeued entry => some entry
    | _ => none

def discarded (events : List (Event ε)) : List ε :=
  events.filterMap fun
    | .discarded entry => some entry
    | _ => none

def dropped (events : List (Event ε)) : List ε :=
  events.flatMap fun
    | .synchronized entries => entries
    | _ => []

theorem accepted_append (events events' : List (Event ε)) :
    accepted (events ++ events') = accepted events ++ accepted events' := List.filterMap_append

theorem dequeued_append (events events' : List (Event ε)) :
    dequeued (events ++ events') = dequeued events ++ dequeued events' := List.filterMap_append

theorem discarded_append (events events' : List (Event ε)) :
    discarded (events ++ events') = discarded events ++ discarded events' := List.filterMap_append

theorem dropped_append (events events' : List (Event ε)) :
    dropped (events ++ events') = dropped events ++ dropped events' := List.flatMap_append

theorem step_perm (N : Sequencing ε ν) (b : ReorderBuffer ε ν) (input : Input ε) :
    (accepted (step N b input).1 ++ b.queued).Perm
      (dequeued (step N b input).1 ++ discarded (step N b input).1 ++ dropped (step N b input).1 ++
        (step N b input).2.queued) := by
  cases input with
  | arrival entry =>
    rw [step]
    rcases arrive_cases N b entry with ⟨-, harrive⟩ | ⟨-, -, harrive⟩ |
      ⟨-, -, queued, hqueued, hcase⟩
    · have hperm : ([entry] ++ b.queued).Perm (b.queued ++ [entry]) := List.perm_append_comm
      simp only [harrive]
      simpa [accepted, dequeued, discarded, dropped] using hperm
    · simp only [harrive]
      exact .refl _
    · have hperm := (List.perm_orderedInsert (Before N b.head) entry b.queued).symm
      rw [← hqueued] at hperm
      rcases hcase with ⟨-, harrive⟩ | ⟨first, second, rest, rfl, -, harrive⟩
      · simp only [harrive]
        exact hperm
      · simp only [harrive]
        exact hperm
  | request =>
    rw [step]
    rcases request_cases N b with ⟨-, hrequest⟩ | ⟨-, -, hrequest⟩ |
      ⟨-, first, rest, hqueued, -, hrequest⟩
    · simp only [hrequest]
      exact .refl _
    · simp only [hrequest]
      exact .refl _
    · simp only [hrequest, hqueued]
      exact .refl _

/-- Every entry that has been accepted is still queued or has left in one of three ways. -/
theorem run_perm (N : Sequencing ε ν) (b : ReorderBuffer ε ν) (inputs : List (Input ε)) :
    let events := (run N b inputs).1.flatten
    (accepted events ++ b.queued).Perm
      (dequeued events ++ discarded events ++ dropped events ++ (run N b inputs).2.queued) := by
  intro events
  induction inputs generalizing b with
  | nil => exact .refl _
  | cons input inputs ih =>
    have hstep := step_perm N b input
    have hrest := ih (step N b input).2
    have hevents : events = (step N b input).1 ++ (run N (step N b input).2 inputs).1.flatten := rfl
    simp only [hevents, accepted_append, dequeued_append, discarded_append, dropped_append,
      ← Multiset.coe_eq_coe, ← Multiset.coe_add] at hstep hrest ⊢
    generalize (step N b input).2.queued = between at *
    calc
      _ = (accepted (step N b input).1 + b.queued : Multiset ε) +
          accepted (run N (step N b input).2 inputs).1.flatten := by abel
      _ = (dequeued (step N b input).1 + discarded (step N b input).1 +
            dropped (step N b input).1 : Multiset ε) +
          (accepted (run N (step N b input).2 inputs).1.flatten + between) := by
        rw [hstep]
        abel
      _ = _ := by
        rw [hrest]
        abel

def arrivals (inputs : List (Input ε)) : List ε :=
  inputs.filterMap fun
    | .arrival entry => some entry
    | .request => none

theorem accepted_step_sublist (N : Sequencing ε ν) (b : ReorderBuffer ε ν) (input : Input ε) :
    (accepted (step N b input).1).Sublist (arrivals [input]) := by
  cases input with
  | arrival entry =>
    rw [step]
    rcases arrive_cases N b entry with ⟨-, harrive⟩ | ⟨-, -, harrive⟩ | ⟨-, -, _, -, hcase⟩
    · rw [harrive]
      exact .refl _
    · rw [harrive]
      exact List.nil_sublist _
    · rcases hcase with ⟨-, harrive⟩ | ⟨_, _, _, -, -, harrive⟩
      · rw [harrive]
        exact .refl _
      · rw [harrive]
        exact .refl _
  | request =>
    rw [step]
    rcases request_cases N b with ⟨-, hrequest⟩ | ⟨-, -, hrequest⟩ | ⟨-, _, _, -, -, hrequest⟩
    · rw [hrequest]
      exact .refl _
    · rw [hrequest]
      exact .refl _
    · rw [hrequest]
      exact .refl _

/-- What is accepted has arrived, in this order. -/
theorem accepted_run_sublist (N : Sequencing ε ν) (b : ReorderBuffer ε ν)
    (inputs : List (Input ε)) :
    (accepted (run N b inputs).1.flatten).Sublist (arrivals inputs) := by
  induction inputs generalizing b with
  | nil => exact .refl _
  | cons input inputs ih =>
    have hcons : arrivals (input :: inputs) = arrivals [input] ++ arrivals inputs :=
      List.filterMap_append (l := [input])
    rw [run, List.flatten_cons, accepted_append, hcons]
    exact (accepted_step_sublist N b input).append (ih (step N b input).2)

end ReorderBuffer
end SignalIOS.Lib
