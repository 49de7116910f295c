import SignalIOS.Http.HttpManager

/-! What becomes of the futures of a manager that terminates. -/
namespace SignalIOS.Http
open SignalIOS.Lib

theorem FutureResponse.isCompleted_trySet (outcome future : FutureResponse) :
    (trySet outcome future).isCompleted = (future.isCompleted || outcome.isCompleted) := by
  unfold trySet
  cases h : future.isCompleted
  · rw [if_neg Bool.false_ne_true, Bool.false_or]
  · rw [if_pos rfl, h, Bool.true_or]

namespace HttpManager

variable {s t : HttpManager} {ev : FutureRef} {rest : List FutureRef} {outcome : FutureResponse}
  {w : WhenDone}

theorem isCompleted_trySet (s : HttpManager) (ev ev' : FutureRef) (outcome : FutureResponse) :
    ((s.trySet ev outcome).futures.get ev').isCompleted =
      ((s.futures.get ev').isCompleted || (ev' == ev && outcome.isCompleted)) := by
  unfold trySet
  rw [Heap.get_modify]
  by_cases h : ev' = ev
  · rw [if_pos h, FutureResponse.isCompleted_trySet, beq_iff_eq.mpr h, Bool.true_and]
  · rw [if_neg h, beq_eq_false_iff_ne.mpr h, Bool.false_and, Bool.or_false]

/-- What has completed stays completed. -/
theorem isCompleted_trySet_of_isCompleted {ev' : FutureRef}
    (h : (s.futures.get ev').isCompleted = true) :
    ((s.trySet ev outcome).futures.get ev').isCompleted = true := by
  rw [isCompleted_trySet, h, Bool.true_or]

/-- The queue has the futures that have not completed, in the order in which they were made. -/
structure WellFormed (s : HttpManager) : Prop where
  sorted : s.eventualResponseQueue.Pairwise (· < ·)
  lt_next : ∀ ev ∈ s.eventualResponseQueue, ev < s.futures.next
  queued : ∀ ev < s.futures.next, (s.futures.get ev).isCompleted = false →
    ev ∈ s.eventualResponseQueue
  /-- Only callers complete what is still queued. -/
  cancelled : ∀ ev ∈ s.eventualResponseQueue, (s.futures.get ev).isCompleted = true →
    s.futures.get ev = .cancelled

/-- What a call of `terminateWhenDoneCurrentWork` waits for completes after all that was queued. -/
structure WaitsForAll (s : HttpManager) (w : WhenDone) : Prop where
  last_lt : w.last < s.futures.next
  le_last : ∀ ev ∈ w.queued, ev ≤ w.last
  allCompleted : (s.futures.get w.last).isCompleted = true → s.AllCompleted w.queued

theorem WellFormed.congr (h : s.WellFormed)
    (hqueue : t.eventualResponseQueue = s.eventualResponseQueue) (hfutures : t.futures = s.futures) :
    t.WellFormed := by
  constructor
  · rw [hqueue]
    exact h.sorted
  · rw [hqueue, hfutures]
    exact h.lt_next
  · rw [hqueue, hfutures]
    exact h.queued
  · rw [hqueue, hfutures]
    exact h.cancelled

theorem WaitsForAll.congr (h : s.WaitsForAll w) (hfutures : t.futures = s.futures) :
    t.WaitsForAll w := by
  constructor
  · rw [hfutures]
    exact h.last_lt
  · exact h.le_last
  · unfold AllCompleted
    rw [hfutures]
    exact h.allCompleted

theorem get_trySet_of_ne (s : HttpManager) {ev' : FutureRef} (outcome : FutureResponse)
    (h : ev' ≠ ev) : (s.trySet ev outcome).futures.get ev' = s.futures.get ev' :=
  Heap.get_modify_of_ne _ _ h

theorem WellFormed.cancel (h : s.WellFormed) : (s.trySet ev .cancelled).WellFormed := by
  constructor
  · exact h.sorted
  · exact h.lt_next
  · intro ev' hlt hincomplete
    rw [isCompleted_trySet, Bool.or_eq_false_iff] at hincomplete
    exact h.queued ev' hlt hincomplete.1
  · intro ev' hev' _
    by_cases hsame : ev' = ev
    · subst hsame
      unfold HttpManager.trySet FutureResponse.trySet
      rw [Heap.get_modify_self]
      split
      · exact h.cancelled ev' hev' ‹_›
      · rfl
    · rw [get_trySet_of_ne s .cancelled hsame] at *
      exact h.cancelled ev' hev' ‹_›

theorem WellFormed.dequeue (h : s.WellFormed) (hqueue : s.eventualResponseQueue = ev :: rest)
    (houtcome : outcome.isCompleted = true) :
    ({ s with eventualResponseQueue := rest }.trySet ev outcome).WellFormed := by
  have hsorted := h.sorted
  have hlt := h.lt_next
  rw [hqueue] at hsorted hlt
  constructor
  · exact hsorted.of_cons
  · intro ev' hev'
    exact hlt ev' (List.mem_cons_of_mem ev hev')
  · intro ev' hlt' hincomplete
    rw [isCompleted_trySet, houtcome, Bool.and_true, Bool.or_eq_false_iff,
      beq_eq_false_iff_ne] at hincomplete
    have hmem := h.queued ev' hlt' hincomplete.1
    rw [hqueue] at hmem
    exact (List.mem_cons.mp hmem).resolve_left hincomplete.2
  · intro ev' hev' hcompleted
    have hne : ev' ≠ ev := Nat.ne_of_gt (List.rel_of_pairwise_cons hsorted hev')
    rw [get_trySet_of_ne _ outcome hne] at hcompleted ⊢
    exact h.cancelled ev' (hqueue ▸ List.mem_cons_of_mem ev hev') hcompleted

theorem WellFormed.enqueue (h : s.WellFormed) {sending : List FutureRef} :
    { s with
      futures := s.futures.alloc .incomplete
      eventualResponseQueue := s.eventualResponseQueue ++ [s.futures.next]
      sending := sending }.WellFormed := by
  constructor
  · apply List.pairwise_append.mpr
    refine ⟨h.sorted, List.pairwise_singleton _ _, fun ev hev ev' hev' => ?_⟩
    rw [List.mem_singleton.mp hev']
    exact h.lt_next ev hev
  · intro ev hev
    rcases List.mem_append.mp hev with hev | hev
    · exact Nat.lt_succ_of_lt (h.lt_next ev hev)
    · rw [List.mem_singleton.mp hev]
      exact Nat.lt_succ_self _
  · intro ev hlt hincomplete
    rcases Nat.lt_succ_iff_lt_or_eq.mp hlt with hlt | rfl
    · rw [Heap.get_alloc_of_lt _ _ hlt] at hincomplete
      exact List.mem_append_left _ (h.queued ev hlt hincomplete)
    · exact List.mem_append_right _ (List.mem_singleton_self _)
  · intro ev hev hcompleted
    rcases List.mem_append.mp hev with hev | hev
    · rw [Heap.get_alloc_of_lt _ _ (h.lt_next ev hev)] at hcompleted ⊢
      exact h.cancelled ev hev hcompleted
    · rw [List.mem_singleton.mp hev, Heap.get_alloc_self] at hcompleted
      cases hcompleted

theorem WaitsForAll.enqueue (h : s.WaitsForAll w)
    (ht : t.futures = s.futures.alloc .incomplete) : t.WaitsForAll w := by
  constructor
  · rw [ht]
    exact Nat.lt_succ_of_lt h.last_lt
  · exact h.le_last
  · intro hlast ev hev
    rw [ht, Heap.get_alloc_of_lt _ _ h.last_lt] at hlast
    rw [ht, Heap.get_alloc_of_lt _ _ (Nat.lt_of_le_of_lt (h.le_last ev hev) h.last_lt)]
    exact h.allCompleted hlast ev hev

/-- A future that completes out of turn does no harm if nothing waits for it, or all that was
queued with it has completed. -/
theorem WaitsForAll.trySet (h : s.WaitsForAll w)
    (hev : w.last = ev → ∀ ev' ∈ w.queued, ev' ≠ ev → (s.futures.get ev').isCompleted = true) :
    (s.trySet ev outcome).WaitsForAll w := by
  constructor
  · exact h.last_lt
  · exact h.le_last
  · intro hlast ev' hev'
    by_cases hsame : ev' = ev ∧ w.last = ev
    · rw [hsame.2] at hlast
      rwa [hsame.1]
    · rw [isCompleted_trySet] at hlast
      apply isCompleted_trySet_of_isCompleted
      by_cases hw : w.last = ev
      · exact hev hw ev' hev' fun he => hsame ⟨he, hw⟩
      · rw [beq_eq_false_iff_ne.mpr hw, Bool.false_and, Bool.or_false] at hlast
        exact h.allCompleted hlast ev' hev'

/-- Before the head of the queue everything has completed. -/
theorem WaitsForAll.dequeue (h : s.WaitsForAll w) (hs : s.WellFormed)
    (hqueue : s.eventualResponseQueue = ev :: rest) : (s.trySet ev outcome).WaitsForAll w := by
  apply h.trySet
  intro hw ev' hev' hne
  have hlt : ev' < ev := Nat.lt_of_le_of_ne (hw ▸ h.le_last ev' hev') hne
  have hsorted := hs.sorted
  have hnext := hs.lt_next ev (by simp [hqueue])
  rw [hqueue] at hsorted
  by_contra hincomplete
  have hmem := hs.queued ev' (Nat.lt_trans hlt hnext) (Bool.eq_false_iff.mpr hincomplete)
  rw [hqueue] at hmem
  rcases List.mem_cons.mp hmem with rfl | hmem
  · exact hne rfl
  · exact Nat.lt_asymm hlt (List.rel_of_pairwise_cons hsorted hmem)

/-- What a response does: it is for the head of the queue, if there is one. -/
theorem handleResponse_eq_some (h : s.handleResponse = some t) :
    s.clearing = [] ∧ s.networkFailed = false ∧ ∃ request, s.sent[s.answered]? = some request ∧
      ((s.eventualResponseQueue = [] ∧ t = { s with answered := s.answered + 1 }) ∨
        ∃ ev rest, s.eventualResponseQueue = ev :: rest ∧
          t = { s with answered := s.answered + 1, eventualResponseQueue := rest }.trySet ev
            (.result request)) := by
  unfold handleResponse at h
  split at h
  · rename_i hfree
    rw [Bool.and_eq_true, List.isEmpty_iff, Bool.not_eq_true'] at hfree
    refine ⟨hfree.1, hfree.2, ?_⟩
    split at h
    · cases h
    · rename_i request hrequest hqueue
      exact ⟨request, hrequest, .inl ⟨hqueue, (Option.some.inj h).symm⟩⟩
    · rename_i request ev rest hrequest hqueue
      exact ⟨request, hrequest, .inr ⟨ev, rest, hqueue, (Option.some.inj h).symm⟩⟩
  · cases h

theorem clearNext_eq_some (h : s.clearNext = some t) : ∃ error outer, s.clearing = error :: outer ∧
    ((s.eventualResponseQueue = [] ∧ t = { s with clearing := outer }) ∨
      ∃ ev rest, s.eventualResponseQueue = ev :: rest ∧
        t = { s with eventualResponseQueue := rest }.trySet ev (.failure error)) := by
  unfold clearNext at h
  split at h
  · cases h
  · rename_i error outer hclearing hqueue
    exact ⟨error, outer, hclearing, .inl ⟨hqueue, (Option.some.inj h).symm⟩⟩
  · rename_i error outer ev rest hclearing hqueue
    exact ⟨error, outer, hclearing, .inr ⟨ev, rest, hqueue, (Option.some.inj h).symm⟩⟩

theorem asyncResponseForRequest_eq_some (h : s.asyncResponseForRequest = some t) :
    s.isStarted = true ∧ ((s.lifetimeCancelled = true ∧ t = s) ∨
      s.lifetimeCancelled = false ∧ t = { s with
        futures := s.futures.alloc .incomplete
        eventualResponseQueue := s.eventualResponseQueue ++ [s.futures.next]
        sending := s.sending ++ [s.futures.next] }) := by
  unfold asyncResponseForRequest at h
  split at h
  · cases h
  · rename_i hstarted
    refine ⟨by simpa using hstarted, ?_⟩
    cases hcancelled : s.lifetimeCancelled with
    | true =>
      rw [hcancelled, if_pos rfl] at h
      exact .inl ⟨rfl, (Option.some.inj h).symm⟩
    | false =>
      rw [hcancelled, if_neg Bool.false_ne_true] at h
      exact .inr ⟨rfl, (Option.some.inj h).symm⟩

/-- The call waits, or terminates the manager at once. -/
theorem terminateWhenDoneCurrentWork_cases (s : HttpManager) :
    (s.terminateWhenDoneCurrentWork = s.terminate ∧
      ∀ v, s.eventualResponseQueue.getLast? = some v → (s.futures.get v).isCompleted = true) ∨
    ∃ v, s.eventualResponseQueue.getLast? = some v ∧ (s.futures.get v).isCompleted = false ∧
      s.terminateWhenDoneCurrentWork =
        { s with whenDone := s.whenDone ++ [⟨v, s.eventualResponseQueue⟩] } := by
  unfold terminateWhenDoneCurrentWork
  cases hlast : s.eventualResponseQueue.getLast? with
  | none => exact .inl ⟨rfl, fun v hv => by cases hv⟩
  | some v =>
    cases hcompleted : (s.futures.get v).isCompleted with
    | true =>
      refine .inl ⟨?_, fun v' hv' => ?_⟩
      · dsimp only
        rw [hcompleted, if_pos rfl]
      · rwa [← Option.some.inj hv']
    | false =>
      refine .inr ⟨v, rfl, hcompleted, ?_⟩
      dsimp only
      rw [hcompleted, if_neg Bool.false_ne_true]

theorem send_eq_some (h : s.send ev = some t) : ev ∈ s.sending ∧ t = { s with
    sending := s.sending.erase ev
    sent := if s.isConnected then s.sent ++ [ev] else s.sent } := by
  unfold send at h
  split at h
  · exact ⟨‹_›, (Option.some.inj h).symm⟩
  · cases h

theorem sendRaises_eq_some (h : s.sendRaises ev = some t) :
    ev ∈ s.sending ∧ t = { s with sending := s.sending.erase ev } := by
  unfold sendRaises at h
  split at h
  · exact ⟨‹_›, (Option.some.inj h).symm⟩
  · cases h

theorem cancel_eq_some (h : s.cancel ev = some t) :
    ev < s.futures.next ∧ t = s.trySet ev .cancelled := by
  unfold cancel at h
  split at h
  · exact ⟨‹_›, (Option.some.inj h).symm⟩
  · cases h

theorem terminateBecauseDone_eq_some (h : s.terminateBecauseDone w = some t) :
    w ∈ s.whenDone ∧ (s.futures.get w.last).isCompleted = true ∧
      t = { s with whenDone := s.whenDone.erase w }.terminate := by
  unfold terminateBecauseDone at h
  split at h
  · rename_i hw
    exact ⟨hw.1, hw.2, (Option.some.inj h).symm⟩
  · cases h

/-- What a step does to the queue, and to what decides about it. -/
inductive QueueStep (s t : HttpManager) : Prop
  | unchanged (hlifetime : t.lifetimeCancelled = s.lifetimeCancelled)
    (hclearing : t.clearing = s.clearing)
    (hqueue : t.eventualResponseQueue = s.eventualResponseQueue)
  | enqueue (hlive : s.lifetimeCancelled = false) (hstill : t.lifetimeCancelled = false)
  | dequeue (ev : FutureRef) (rest : List FutureRef) (hqueue : s.eventualResponseQueue = ev :: rest)
    (hrest : t.eventualResponseQueue = rest)
    (hlifetime : t.lifetimeCancelled = s.lifetimeCancelled) (hclearing : t.clearing = s.clearing)
  | startClearing (hclearing : t.clearing ≠ [])
    (hqueue : t.eventualResponseQueue = s.eventualResponseQueue)
    (hlifetime : s.lifetimeCancelled = true → t.lifetimeCancelled = true)
  | endClearing (hempty : s.eventualResponseQueue = []) (hqueue : t.eventualResponseQueue = [])
    (hlifetime : t.lifetimeCancelled = s.lifetimeCancelled)

theorem queueStep_of_step {e : Event} (h : machine.step s e = some t) : QueueStep s t := by
  cases e with
  | start =>
    obtain ⟨-, rfl⟩ : _ ∧ { s with isStarted := true } = t := by
      simpa [machine, start] using h
    exact .unchanged rfl rfl rfl
  | asyncResponseForRequest =>
    rcases asyncResponseForRequest_eq_some h with ⟨-, ⟨-, rfl⟩ | ⟨hlive, rfl⟩⟩
    · exact .unchanged rfl rfl rfl
    · exact .enqueue hlive hlive
  | send ev =>
    obtain ⟨-, rfl⟩ := send_eq_some h
    exact .unchanged rfl rfl rfl
  | sendRaises ev =>
    obtain ⟨-, rfl⟩ := sendRaises_eq_some h
    exact .unchanged rfl rfl rfl
  | cancel ev =>
    obtain ⟨-, rfl⟩ := cancel_eq_some h
    exact .unchanged rfl rfl rfl
  | response =>
    obtain ⟨-, -, request, -, ⟨-, rfl⟩ | ⟨ev, rest, hqueue, rfl⟩⟩ := handleResponse_eq_some h
    · exact .unchanged rfl rfl rfl
    · exact .dequeue ev rest hqueue rfl rfl rfl
  | request =>
    obtain rfl := Option.some.inj h
    exact .unchanged rfl rfl rfl
  | networkFailure =>
    obtain rfl := Option.some.inj h
    exact .startClearing (List.cons_ne_nil _ _) rfl id
  | clearNext =>
    obtain ⟨error, outer, -, ⟨hempty, rfl⟩ | ⟨ev, rest, hqueue, rfl⟩⟩ := clearNext_eq_some h
    · exact .endClearing hempty hempty rfl
    · exact .dequeue ev rest hqueue rfl rfl rfl
  | terminate =>
    obtain rfl := Option.some.inj h
    exact .startClearing (List.cons_ne_nil _ _) rfl fun _ => rfl
  | terminateWhenDoneCurrentWork =>
    obtain rfl := Option.some.inj h
    rcases s.terminateWhenDoneCurrentWork_cases with ⟨heq, -⟩ | ⟨v, -, -, heq⟩
    · rw [heq]
      exact .startClearing (List.cons_ne_nil _ _) rfl fun _ => rfl
    · rw [heq]
      exact .unchanged rfl rfl rfl
  | terminateBecauseDone w =>
    obtain ⟨-, -, rfl⟩ := terminateBecauseDone_eq_some h
    exact .startClearing (List.cons_ne_nil _ _) rfl fun _ => rfl

/-- A loop of `clearQueue` goes on until the queue is empty. -/
def Cleared (s : HttpManager) : Prop :=
  s.lifetimeCancelled = true → s.clearing = [] → s.eventualResponseQueue = []

theorem Cleared.step (hs : s.Cleared) (h : QueueStep s t) : t.Cleared := by
  intro hcancelled hloops
  cases h with
  | unchanged hlifetime hclearing hqueue =>
    rw [hlifetime] at hcancelled
    rw [hclearing] at hloops
    rw [hqueue]
    exact hs hcancelled hloops
  | enqueue _ hlive => exact absurd (hlive.symm.trans hcancelled) Bool.false_ne_true
  | dequeue ev rest hqueue _ hlifetime hclearing =>
    rw [hlifetime] at hcancelled
    rw [hclearing] at hloops
    have hempty := hs hcancelled hloops
    rw [hqueue] at hempty
    cases hempty
  | startClearing hclearing => exact absurd hloops hclearing
  | endClearing _ hqueue => exact hqueue

/-- Once `lifetime` is cancelled nothing is enqueued. -/
theorem QueueStep.empty (h : QueueStep s t) (hs : s.lifetimeCancelled = true)
    (hempty : s.eventualResponseQueue = []) :
    t.lifetimeCancelled = true ∧ t.eventualResponseQueue = [] := by
  cases h with
  | unchanged hlifetime _ hqueue => exact ⟨hlifetime.trans hs, hqueue.trans hempty⟩
  | enqueue hlive => exact absurd (hlive.symm.trans hs) Bool.false_ne_true
  | dequeue ev rest hqueue =>
    rw [hqueue] at hempty
    cases hempty
  | startClearing _ hqueue hlifetime => exact ⟨hlifetime hs, hqueue.trans hempty⟩
  | endClearing _ hqueue hlifetime => exact ⟨hlifetime.trans hs, hqueue⟩

/-- A caller cancels no request that `terminateWhenDoneCurrentWork` waits for while another one that
was queued at the call is outstanding, and `terminateWhenDoneCurrentWork` is not called while the
last request of the queue is cancelled and another one is outstanding. -/
def CancelsInOrder (tr : History HttpManager Event) : Event → Prop
  | .cancel ev => ∀ w ∈ (machine.last tr).whenDone, w.last = ev → ∀ ev' ∈ w.queued, ev' ≠ ev →
      ((machine.last tr).futures.get ev').isCompleted = true
  | .terminateWhenDoneCurrentWork =>
    ∀ v ∈ (machine.last tr).eventualResponseQueue.getLast?,
      (machine.last tr).futures.get v = .cancelled →
        (machine.last tr).AllCompleted (machine.last tr).eventualResponseQueue
  | _ => True

instance (s : HttpManager) (evs : List FutureRef) : Decidable (s.AllCompleted evs) :=
  inferInstanceAs (Decidable (∀ ev ∈ evs, _))

instance (tr : History HttpManager Event) (e : Event) : Decidable (CancelsInOrder tr e) := by
  cases e <;> unfold CancelsInOrder <;> infer_instance

/-- What every run keeps, and what it keeps as long as the callers cancel in order. -/
structure Orderly (inOrder : Prop) (s : HttpManager) : Prop where
  wellFormed : s.WellFormed
  waitsForAll : inOrder → ∀ w ∈ s.whenDone, s.WaitsForAll w

variable {inOrder : Prop}

theorem Orderly.congr (h : s.Orderly inOrder)
    (hqueue : t.eventualResponseQueue = s.eventualResponseQueue) (hfutures : t.futures = s.futures)
    (hwhenDone : ∀ w ∈ t.whenDone, w ∈ s.whenDone) : t.Orderly inOrder := by
  constructor
  · exact h.wellFormed.congr hqueue hfutures
  · intro hin w hw
    exact (h.waitsForAll hin w (hwhenDone w hw)).congr hfutures

theorem Orderly.dequeue (h : s.Orderly inOrder) (hqueue : s.eventualResponseQueue = ev :: rest)
    (houtcome : outcome.isCompleted = true) :
    ({ s with eventualResponseQueue := rest }.trySet ev outcome).Orderly inOrder := by
  constructor
  · exact h.wellFormed.dequeue hqueue houtcome
  · intro hin w hw
    exact ((h.waitsForAll hin w hw).dequeue h.wellFormed hqueue).congr rfl

theorem Orderly.enqueue (h : s.Orderly inOrder) {sending : List FutureRef} :
    { s with
      futures := s.futures.alloc .incomplete
      eventualResponseQueue := s.eventualResponseQueue ++ [s.futures.next]
      sending := sending }.Orderly inOrder := by
  constructor
  · exact h.wellFormed.enqueue
  · intro hin w hw
    exact (h.waitsForAll hin w hw).enqueue rfl

theorem le_getLast {evs : List FutureRef} (h : evs.Pairwise (· < ·)) {v : FutureRef}
    (hv : evs.getLast? = some v) : ∀ ev ∈ evs, ev ≤ v := by
  obtain ⟨front, rfl⟩ := List.getLast?_eq_some_iff.mp hv
  intro ev hev
  rcases List.mem_append.mp hev with hev | hev
  · exact Nat.le_of_lt ((List.pairwise_append.mp h).2.2 ev hev v (List.mem_singleton_self v))
  · exact Nat.le_of_eq (List.mem_singleton.mp hev)

theorem Orderly.terminateWhenDoneCurrentWork (h : s.Orderly inOrder) :
    s.terminateWhenDoneCurrentWork.Orderly inOrder := by
  rcases s.terminateWhenDoneCurrentWork_cases with ⟨heq, -⟩ | ⟨v, hv, hincomplete, heq⟩
  · rw [heq]
    exact h.congr rfl rfl fun w hw => hw
  · rw [heq]
    constructor
    · exact h.wellFormed.congr rfl rfl
    · intro hin w hw
      rcases List.mem_append.mp hw with hw | hw
      · exact (h.waitsForAll hin w hw).congr rfl
      · rw [List.mem_singleton.mp hw]
        constructor
        · exact h.wellFormed.lt_next v (List.mem_of_getLast? hv)
        · exact le_getLast h.wellFormed.sorted hv
        · intro hcompleted
          exact absurd (hincomplete.symm.trans hcompleted) Bool.false_ne_true

theorem Orderly.step {tr : History HttpManager Event} {e : Event}
    (hs : (machine.last tr).Orderly inOrder) (he : inOrder → CancelsInOrder tr e)
    (h : machine.step (machine.last tr) e = some t) : t.Orderly inOrder := by
  cases e with
  | start =>
    obtain ⟨-, rfl⟩ : _ ∧ { machine.last tr with isStarted := true } = t := by
      simpa [machine, start] using h
    exact hs.congr rfl rfl fun w hw => hw
  | asyncResponseForRequest =>
    rcases asyncResponseForRequest_eq_some h with ⟨-, ⟨-, rfl⟩ | ⟨-, rfl⟩⟩
    · exact hs
    · exact hs.enqueue
  | send ev =>
    obtain ⟨-, rfl⟩ := send_eq_some h
    exact hs.congr rfl rfl fun w hw => hw
  | sendRaises ev =>
    obtain ⟨-, rfl⟩ := sendRaises_eq_some h
    exact hs.congr rfl rfl fun w hw => hw
  | cancel ev =>
    obtain ⟨-, rfl⟩ := cancel_eq_some h
    constructor
    · exact hs.wellFormed.cancel
    · intro hin w hw
      exact (hs.waitsForAll hin w hw).trySet (he hin w hw)
  | response =>
    obtain ⟨-, -, request, -, ⟨-, rfl⟩ | ⟨ev, rest, hqueue, rfl⟩⟩ := handleResponse_eq_some h
    · exact hs.congr rfl rfl fun w hw => hw
    · have houtcome : (FutureResponse.result request).isCompleted = true := rfl
      exact (hs.dequeue hqueue houtcome).congr rfl rfl fun w hw => hw
  | request =>
    obtain rfl := Option.some.inj h
    exact hs
  | networkFailure =>
    obtain rfl := Option.some.inj h
    exact hs.congr rfl rfl fun w hw => hw
  | clearNext =>
    obtain ⟨error, outer, -, ⟨-, rfl⟩ | ⟨ev, rest, hqueue, rfl⟩⟩ := clearNext_eq_some h
    · exact hs.congr rfl rfl fun w hw => hw
    · exact hs.dequeue hqueue rfl
  | terminate =>
    obtain rfl := Option.some.inj h
    exact hs.congr rfl rfl fun w hw => hw
  | terminateWhenDoneCurrentWork =>
    obtain rfl := Option.some.inj h
    exact hs.terminateWhenDoneCurrentWork
  | terminateBecauseDone w =>
    obtain ⟨-, -, rfl⟩ := terminateBecauseDone_eq_some h
    exact hs.congr rfl rfl fun w' hw' => List.mem_of_mem_erase hw'

theorem orderly_init (inOrder : Prop) : machine.init.Orderly inOrder := by
  constructor
  · constructor
    · exact List.Pairwise.nil
    · intro ev hev
      cases hev
    · intro ev hev
      cases hev
    · intro ev hev
      cases hev
  · intro _ w hw
    cases hw

/-- A manager that has been terminated has nothing left to do, and it stays that way. -/
def Settled (tr : History HttpManager Event) : Prop :=
  machine.Reached IsTerminated tr → (machine.last tr).eventualResponseQueue = [] ∧
    ∀ ev < (machine.last tr).futures.next, ((machine.last tr).futures.get ev).isCompleted = true

/-- Where `terminateWhenDoneCurrentWork` terminates the manager, at once or later, all requests that
were queued at the call have completed. -/
def FinishesWork (s : HttpManager) : Event → Prop
  | .terminateWhenDoneCurrentWork =>
    s.lifetimeCancelled = false → s.terminateWhenDoneCurrentWork.lifetimeCancelled = true →
      s.AllCompleted s.eventualResponseQueue
  | .terminateBecauseDone w => s.AllCompleted w.queued
  | _ => True

/-- The lifecycle of a manager, as far as the history goes. -/
def KeepsLifecycle : History HttpManager Event → Prop
  | [] => Settled []
  | (e, s) :: tr => Settled ((e, s) :: tr) ∧ (machine.last tr).FinishesWork e

variable {tr : History HttpManager Event}

theorem orderly_of_run (h : machine.Run tr) : (machine.last tr).Orderly False :=
  h.invariant (P := fun tr => (machine.last tr).Orderly False) (orderly_init False)
    fun _ _ _ _ hs hstep => hs.step False.elim hstep

theorem cleared_of_run (h : machine.Run tr) : (machine.last tr).Cleared :=
  h.state_invariant (fun _ _ => rfl) fun _ _ _ hs hstep => hs.step (queueStep_of_step hstep)

theorem empty_of_terminated (h : machine.Run tr) (hterminated : machine.Reached IsTerminated tr) :
    (machine.last tr).lifetimeCancelled = true ∧
      (machine.last tr).eventualResponseQueue = [] := by
  induction tr with
  | nil => exact absurd hterminated.1 Bool.false_ne_true
  | cons p tr ih =>
    rcases hterminated with hnow | hreached
    · exact ⟨hnow.1, (cleared_of_run h : Cleared p.2) hnow.1 hnow.2⟩
    · obtain ⟨hcancelled, hempty⟩ := ih h.1 hreached
      exact (queueStep_of_step h.2).empty hcancelled hempty

/-- Termination is final in every run. -/
theorem settled_of_run (h : machine.Run tr) : Settled tr := by
  intro hterminated
  have hempty := (empty_of_terminated h hterminated).2
  refine ⟨hempty, fun ev hev => ?_⟩
  by_contra hincomplete
  have hmem := (orderly_of_run h).wellFormed.queued ev hev (Bool.eq_false_iff.mpr hincomplete)
  rw [hempty] at hmem
  cases hmem

theorem orderly_of_guarded (h : machine.Run tr) (hguarded : Machine.Guarded CancelsInOrder tr) :
    (machine.last tr).Orderly True := by
  induction tr with
  | nil => exact orderly_init True
  | cons p tr ih => exact (ih h.1 hguarded.2).step (fun _ => hguarded.1) h.2

theorem Orderly.finishesWork {e : Event} (hs : (machine.last tr).Orderly True)
    (he : CancelsInOrder tr e) (h : machine.step (machine.last tr) e = some t) :
    (machine.last tr).FinishesWork e := by
  cases e with
  | terminateWhenDoneCurrentWork =>
    intro hlive hcancelled
    rcases (machine.last tr).terminateWhenDoneCurrentWork_cases with
      ⟨-, hcompleted⟩ | ⟨v, -, -, heq⟩
    · cases hlast : (machine.last tr).eventualResponseQueue.getLast? with
      | none =>
        rw [List.getLast?_eq_none_iff.mp hlast]
        intro ev hev
        cases hev
      | some v =>
        have hmem := List.mem_of_getLast? hlast
        exact he v hlast (hs.wellFormed.cancelled v hmem (hcompleted v hlast))
    · rw [heq] at hcancelled
      exact absurd (hlive.symm.trans hcancelled) Bool.false_ne_true
  | terminateBecauseDone w =>
    obtain ⟨hw, hcompleted, -⟩ := terminateBecauseDone_eq_some h
    exact (hs.waitsForAll trivial w hw).allCompleted hcompleted
  | _ => trivial

/-- As long as the callers cancel in order, `terminateWhenDoneCurrentWork` lets what is queued
finish. -/
theorem keepsLifecycle_of_cancelsInOrder (h : machine.Run tr)
    (hguarded : Machine.Guarded CancelsInOrder tr) : Machine.Always KeepsLifecycle tr := by
  induction tr with
  | nil => exact settled_of_run h
  | cons p tr ih =>
    have hfinishes := (orderly_of_guarded h.1 hguarded.2).finishesWork hguarded.1 h.2
    exact ⟨⟨settled_of_run h, hfinishes⟩, ih h.1 hguarded.2⟩

/-- Two requests, of which the caller cancels the second. It is the one that the manager waits for,
which then fails the first. -/
def cancelledLast : List Event :=
  [.start, .asyncResponseForRequest, .asyncResponseForRequest, .send 0, .send 1,
    .terminateWhenDoneCurrentWork, .cancel 1, .terminateBecauseDone ⟨1, [0, 1]⟩, .clearNext]

theorem not_keepsLifecycle : ∃ tr, machine.exec cancelledLast = some tr ∧ machine.Run tr ∧
    (machine.last tr).futures.get 0 = .failure .terminatedBeforeResponse ∧
    ¬ Machine.Always KeepsLifecycle tr := by
  have hexec : (machine.exec cancelledLast).isSome := by decide
  have hlast : (machine.exec cancelledLast).map (fun tr => (machine.last tr).futures.get 0) =
    some (.failure .terminatedBeforeResponse) := by decide
  have hbefore : (machine.exec cancelledLast).map (fun tr =>
    ((machine.last tr.tail.tail).futures.get 0).isCompleted) = some false := by decide
  obtain ⟨tr, htr⟩ := Option.isSome_iff_exists.mp hexec
  rw [htr] at hlast hbefore
  refine ⟨tr, htr, Machine.run_of_exec htr, Option.some.inj hlast, fun h => ?_⟩
  have hevents := Machine.map_fst_of_exec htr
  rcases tr with _ | ⟨⟨e, s⟩, _ | ⟨⟨e', s'⟩, tr⟩⟩
  · cases hevents
  · cases hevents
  · obtain ⟨rfl, rfl, -⟩ : e = .clearNext ∧ e' = .terminateBecauseDone ⟨1, [0, 1]⟩ ∧ _ := by
      simpa [cancelledLast] using hevents
    have hcompleted := h.2.1.2 0 (List.mem_cons_self)
    exact absurd (hcompleted.symm.trans (Option.some.inj hbefore)) (by decide)

/-- The caller cancels the first of two requests, and both are answered before the manager
terminates. -/
def cancelledFirst : List Event :=
  [.start, .asyncResponseForRequest, .asyncResponseForRequest, .send 0, .send 1,
    .terminateWhenDoneCurrentWork, .cancel 0, .response, .response,
    .terminateBecauseDone ⟨1, [0, 1]⟩, .clearNext]

theorem keepsLifecycle_cancelledFirst : ∃ tr, machine.exec cancelledFirst = some tr ∧
    Machine.Always KeepsLifecycle tr := by
  have hguarded : (machine.exec cancelledFirst).map (fun tr =>
    decide (Machine.Guarded CancelsInOrder tr)) = some true := by decide
  obtain ⟨tr, htr, hguarded⟩ := Option.map_eq_some_iff.mp hguarded
  exact ⟨tr, htr, keepsLifecycle_of_cancelsInOrder (Machine.run_of_exec htr)
    (of_decide_eq_true hguarded)⟩

end HttpManager
end SignalIOS.Http
