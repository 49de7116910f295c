import SignalIOS.Http.ManagerLifecycle

/-! Which request a response is for. -/
namespace SignalIOS.Http
open SignalIOS.Lib

namespace HttpManager

/-- The future of a request that the server has answered has the response, unless it had been
cancelled, or the manager had been terminated, by then. -/
def IsAnswered (s : HttpManager) (ev : FutureRef) : Prop :=
  s.futures.get ev = .result ev ∨ s.futures.get ev = .cancelled ∨
    (∃ error, s.futures.get ev = .failure error) ∧ s.lifetimeCancelled = true

/-- Every future completes with the response to its own request, and does so once the request is
answered. -/
structure Paired (s : HttpManager) : Prop where
  own : ∀ ev request, s.futures.get ev = .result request → request = ev
  answered : ∀ ev ∈ s.sent.take s.answered, s.IsAnswered ev

/-- No future is cancelled but by its own caller. -/
def CancelledByCallers (tr : History HttpManager Event) : Prop :=
  ∀ ev, (machine.last tr).futures.get ev = .cancelled → .cancel ev ∈ tr.map Prod.fst

/-- As long as the socket is connected, the calls send in the order in which they have enqueued,
and none fails to send. -/
def SendsInOrder (tr : History HttpManager Event) : Event → Prop
  | .send ev => (machine.last tr).isConnected = true → (machine.last tr).sending.head? = some ev
  | .sendRaises _ => (machine.last tr).isConnected = false
  | _ => True

instance (tr : History HttpManager Event) (e : Event) : Decidable (SendsInOrder tr e) :=
  match e with
  | .send _ => inferInstanceAs (Decidable (_ → _))
  | .sendRaises _ => inferInstanceAs (Decidable (_ = _))
  | .start | .asyncResponseForRequest | .cancel _ | .response | .request | .networkFailure
  | .clearNext | .terminate | .terminateWhenDoneCurrentWork | .terminateBecauseDone _ =>
    .isTrue trivial

/-- The queue has what the server is going to answer, and what is going to be sent. -/
structure InStep (s : HttpManager) : Prop extends s.Paired where
  answered_le : s.answered ≤ s.sent.length
  sent_lt : ∀ ev ∈ s.sent, ev < s.futures.next
  sending_lt : ∀ ev ∈ s.sending, ev < s.futures.next
  clearing : s.isConnected = true → s.clearing = []
  queue : s.isConnected = true →
    s.eventualResponseQueue = s.sent.drop s.answered ++ s.sending

variable {s t : HttpManager} {ev : FutureRef} {rest : List FutureRef} {outcome : FutureResponse}

theorem isConnected_eq_true :
    s.isConnected = true ↔ s.lifetimeCancelled = false ∧ s.networkFailed = false := by
  unfold isConnected
  rw [Bool.and_eq_true, Bool.not_eq_true', Bool.not_eq_true']

theorem IsAnswered.isCompleted (h : s.IsAnswered ev) : (s.futures.get ev).isCompleted = true := by
  rcases h with hresult | hcancelled | ⟨⟨error, hfailed⟩, -⟩
  · rw [hresult]
    rfl
  · rw [hcancelled]
    rfl
  · rw [hfailed]
    rfl

theorem IsAnswered.congr (h : s.IsAnswered ev) (hget : t.futures.get ev = s.futures.get ev)
    (hlifetime : s.lifetimeCancelled = true → t.lifetimeCancelled = true) : t.IsAnswered ev := by
  unfold IsAnswered
  rw [hget]
  exact h.imp_right (Or.imp_right (And.imp_right hlifetime))

/-- The first outcome of a future remains. -/
theorem get_trySet_of_isCompleted {ev' : FutureRef}
    (h : (s.futures.get ev').isCompleted = true) :
    (s.trySet ev outcome).futures.get ev' = s.futures.get ev' := by
  unfold HttpManager.trySet
  rw [Heap.get_modify]
  split
  · exact if_pos h
  · rfl

theorem IsAnswered.trySet {ev' : FutureRef} (h : s.IsAnswered ev') :
    (s.trySet ev outcome).IsAnswered ev' :=
  h.congr (get_trySet_of_isCompleted h.isCompleted) fun hlifetime => hlifetime

theorem Paired.congr (h : s.Paired) (hfutures : t.futures = s.futures) (hsent : t.sent = s.sent)
    (hanswered : t.answered = s.answered)
    (hlifetime : s.lifetimeCancelled = true → t.lifetimeCancelled = true) : t.Paired := by
  constructor
  · rw [hfutures]
    exact h.own
  · rw [hsent, hanswered]
    exact fun ev hev => (h.answered ev hev).congr (by rw [hfutures]) hlifetime

theorem own_trySet (h : ∀ ev request, s.futures.get ev = .result request → request = ev)
    (houtcome : ∀ request, outcome = .result request → request = ev) (ev' request : FutureRef)
    (hresult : (s.trySet ev outcome).futures.get ev' = .result request) : request = ev' := by
  by_cases hsame : ev' = ev
  · subst hsame
    unfold HttpManager.trySet FutureResponse.trySet at hresult
    rw [Heap.get_modify_self] at hresult
    split at hresult
    · exact h ev' request hresult
    · exact houtcome request hresult
  · rw [get_trySet_of_ne s outcome hsame] at hresult
    exact h ev' request hresult

theorem Paired.trySet (h : s.Paired)
    (houtcome : ∀ request, outcome = .result request → request = ev) :
    (s.trySet ev outcome).Paired := by
  constructor
  · exact own_trySet h.own houtcome
  · exact fun ev' hev' => (h.answered ev' hev').trySet

/-- Steps that leave the connection, the queue and the requests on their way alone. -/
theorem InStep.congr (h : s.InStep) (hpaired : t.Paired)
    (hnext : t.futures.next = s.futures.next) (hsent : t.sent = s.sent)
    (hanswered : t.answered = s.answered) (hsending : ∀ ev ∈ t.sending, ev ∈ s.sending)
    (hconnected : t.isConnected = true → s.isConnected = true ∧ t.clearing = s.clearing ∧
      t.eventualResponseQueue = s.eventualResponseQueue ∧ t.sending = s.sending) :
    t.InStep := by
  refine ⟨hpaired, ?_, ?_, ?_, ?_, ?_⟩
  · rw [hanswered, hsent]
    exact h.answered_le
  · rw [hsent, hnext]
    exact h.sent_lt
  · rw [hnext]
    exact fun ev hev => h.sending_lt ev (hsending ev hev)
  · intro hup
    obtain ⟨hbefore, hclearing, -, -⟩ := hconnected hup
    rw [hclearing]
    exact h.clearing hbefore
  · intro hup
    obtain ⟨hbefore, -, hqueue, hsame⟩ := hconnected hup
    rw [hqueue, hsent, hsame, hanswered]
    exact h.queue hbefore

theorem InStep.enqueue (h : s.InStep) : { s with
    futures := s.futures.alloc .incomplete
    eventualResponseQueue := s.eventualResponseQueue ++ [s.futures.next]
    sending := s.sending ++ [s.futures.next] }.InStep := by
  constructor
  · constructor
    · intro ev request hresult
      dsimp only at hresult
      rw [Heap.get_alloc] at hresult
      split at hresult
      · cases hresult
      · exact h.own ev request hresult
    · intro ev hev
      refine (h.answered ev hev).congr ?_ fun hlifetime => hlifetime
      exact Heap.get_alloc_of_lt _ _ (h.sent_lt ev (List.mem_of_mem_take hev))
  · exact h.answered_le
  · intro ev hev
    exact Nat.lt_succ_of_lt (h.sent_lt ev hev)
  · intro ev hev
    rcases List.mem_append.mp hev with hev | hev
    · exact Nat.lt_succ_of_lt (h.sending_lt ev hev)
    · rw [List.mem_singleton.mp hev]
      exact Nat.lt_succ_self _
  · exact h.clearing
  · intro hconnected
    dsimp only
    rw [h.queue hconnected, List.append_assoc]

theorem InStep.send (h : s.InStep) (hmem : ev ∈ s.sending)
    (horder : s.isConnected = true → s.sending.head? = some ev) : { s with
      sending := s.sending.erase ev
      sent := if s.isConnected then s.sent ++ [ev] else s.sent }.InStep := by
  cases hconnected : s.isConnected with
  | false =>
    rw [if_neg Bool.false_ne_true]
    exact h.congr (h.toPaired.congr rfl rfl rfl id) rfl rfl rfl (fun _ => List.mem_of_mem_erase)
      fun hup => absurd (hconnected.symm.trans hup) Bool.false_ne_true
  | true =>
    rw [if_pos rfl]
    obtain ⟨later, hsending⟩ := List.head?_eq_some_iff.mp (horder hconnected)
    have hle := h.answered_le
    constructor
    · constructor
      · exact h.own
      · dsimp only
        rw [List.take_append_of_le_length hle]
        exact h.answered
    · dsimp only
      rw [List.length_append]
      omega
    · intro ev' hev'
      rcases List.mem_append.mp hev' with hev' | hev'
      · exact h.sent_lt ev' hev'
      · rw [List.mem_singleton.mp hev']
        exact h.sending_lt ev hmem
    · exact fun ev' hev' => h.sending_lt ev' (List.mem_of_mem_erase hev')
    · exact h.clearing
    · intro hup
      dsimp only
      rw [h.queue hup, hsending, List.erase_cons_head, List.drop_append_of_le_length hle,
        List.append_assoc, List.singleton_append]

/-- A response that is handled when nothing is queued: the manager has been terminated. -/
theorem InStep.ignoreResponse (h : s.InStep) (hs : s.WellFormed)
    (hqueue : s.eventualResponseQueue = []) (hnetwork : s.networkFailed = false)
    {request : FutureRef} (hrequest : s.sent[s.answered]? = some request) :
    { s with answered := s.answered + 1 }.InStep := by
  have hcompleted : ∀ ev < s.futures.next, (s.futures.get ev).isCompleted = true := by
    intro ev hev
    by_contra hincomplete
    have hmem := hs.queued ev hev (Bool.eq_false_iff.mpr hincomplete)
    rw [hqueue] at hmem
    cases hmem
  obtain ⟨hlt, -⟩ := List.getElem?_eq_some_iff.mp hrequest
  have hdown : s.isConnected = true → False := by
    intro hconnected
    have hempty := (h.queue hconnected).symm.trans hqueue
    rw [List.append_eq_nil_iff, List.drop_eq_nil_iff] at hempty
    omega
  have hlifetime : s.lifetimeCancelled = true := by
    by_contra hlive
    exact hdown (isConnected_eq_true.mpr ⟨Bool.not_eq_true _ ▸ hlive, hnetwork⟩)
  constructor
  · constructor
    · exact h.own
    · intro ev hev
      have hdone := hcompleted ev (h.sent_lt ev (List.mem_of_mem_take hev))
      show s.IsAnswered ev
      cases hget : s.futures.get ev with
      | incomplete =>
        rw [hget] at hdone
        cases hdone
      | result r =>
        obtain rfl := h.own ev r hget
        exact .inl hget
      | failure error => exact .inr (.inr ⟨⟨error, hget⟩, hlifetime⟩)
      | cancelled => exact .inr (.inl hget)
  · exact hlt
  · exact h.sent_lt
  · exact h.sending_lt
  · exact fun hconnected => (hdown hconnected).elim
  · exact fun hconnected => (hdown hconnected).elim

/-- The response to a request whose future is queued. -/
theorem isAnswered_trySet
    (h : (s.futures.get ev).isCompleted = true → s.futures.get ev = .cancelled) :
    (s.trySet ev (.result ev)).IsAnswered ev := by
  cases hdone : (s.futures.get ev).isCompleted with
  | true => exact .inr (.inl ((get_trySet_of_isCompleted hdone).trans (h hdone)))
  | false =>
    left
    unfold HttpManager.trySet
    rw [Heap.get_modify_self]
    exact if_neg (Bool.not_eq_true _ ▸ hdone)

/-- The head of the queue is the request that is answered next. -/
theorem InStep.takeResponse (h : s.InStep) (hs : s.WellFormed) (hconnected : s.isConnected = true)
    (hqueue : s.eventualResponseQueue = ev :: rest) {request : FutureRef}
    (hrequest : s.sent[s.answered]? = some request) :
    ({ s with answered := s.answered + 1, eventualResponseQueue := rest }.trySet ev
      (.result request)).InStep := by
  obtain ⟨hlt, hget⟩ := List.getElem?_eq_some_iff.mp hrequest
  have hdrop : s.sent.drop s.answered = request :: s.sent.drop (s.answered + 1) := by
    rw [List.drop_eq_getElem_cons hlt, hget]
  have hboth := (h.queue hconnected).symm.trans hqueue
  rw [hdrop, List.cons_append, List.cons.injEq] at hboth
  obtain ⟨rfl, hrest⟩ := hboth
  constructor
  · constructor
    · refine own_trySet (s := s) h.own fun r hr => ?_
      cases hr
      rfl
    · intro ev' hev'
      have htake : s.sent.take (s.answered + 1) = s.sent.take s.answered ++ [request] := by
        rw [List.take_succ_eq_append_getElem hlt, hget]
      rcases List.mem_append.mp (htake ▸ hev') with hev' | hev'
      · exact ((h.answered ev' hev').congr (t := { s with
          answered := s.answered + 1, eventualResponseQueue := rest }) rfl id).trySet
      · rw [List.mem_singleton.mp hev']
        exact isAnswered_trySet (s := { s with
          answered := s.answered + 1, eventualResponseQueue := rest }) fun hdone =>
            hs.cancelled request (by rw [hqueue]; exact List.mem_cons_self) hdone
  · exact hlt
  · exact h.sent_lt
  · exact h.sending_lt
  · exact h.clearing
  · exact fun _ => hrest.symm

/-- Steps after which the socket is not connected. -/
theorem InStep.disconnect (h : s.InStep) (hpaired : t.Paired)
    (hnext : t.futures.next = s.futures.next) (hsent : t.sent = s.sent)
    (hanswered : t.answered = s.answered) (hsending : t.sending = s.sending)
    (hdown : t.isConnected = false) : t.InStep := by
  apply h.congr hpaired hnext hsent hanswered
  · rw [hsending]
    exact fun ev hev => hev
  · exact fun hup => absurd (hdown.symm.trans hup) Bool.false_ne_true

theorem InStep.step {tr : History HttpManager Event} {e : Event} (hrun : machine.Run tr)
    (hs : (machine.last tr).InStep) (he : SendsInOrder tr e)
    (h : machine.step (machine.last tr) e = some t) : t.InStep := by
  have hpaired := hs.toPaired
  cases e with
  | start =>
    obtain ⟨-, rfl⟩ : _ ∧ { machine.last tr with isStarted := true } = t := by
      simpa [machine, start] using h
    exact hs.congr (hpaired.congr rfl rfl rfl id) rfl rfl rfl (fun _ hev => hev)
      fun hup => ⟨hup, rfl, rfl, rfl⟩
  | asyncResponseForRequest =>
    rcases asyncResponseForRequest_eq_some h with ⟨-, ⟨-, rfl⟩ | ⟨-, rfl⟩⟩
    · exact hs
    · exact hs.enqueue
  | send ev =>
    obtain ⟨hmem, rfl⟩ := send_eq_some h
    exact hs.send hmem he
  | sendRaises ev =>
    obtain ⟨-, rfl⟩ := sendRaises_eq_some h
    exact hs.congr (hpaired.congr rfl rfl rfl id) rfl rfl rfl (fun _ => List.mem_of_mem_erase)
      fun hup => absurd (he.symm.trans hup) Bool.false_ne_true
  | cancel ev =>
    obtain ⟨-, rfl⟩ := cancel_eq_some h
    refine hs.congr (hpaired.trySet fun request hr => ?_) rfl rfl rfl (fun _ hev => hev)
      fun hup => ⟨hup, rfl, rfl, rfl⟩
    cases hr
  | response =>
    obtain ⟨hfree, hnetwork, request, hrequest, ⟨hqueue, rfl⟩ | ⟨ev, rest, hqueue, rfl⟩⟩ :=
      handleResponse_eq_some h
    · exact hs.ignoreResponse (orderly_of_run hrun).wellFormed hqueue hnetwork hrequest
    · have hconnected : (machine.last tr).isConnected = true := by
        rw [isConnected_eq_true]
        refine ⟨Bool.eq_false_iff.mpr fun hcancelled => ?_, hnetwork⟩
        have hempty := cleared_of_run hrun hcancelled hfree
        rw [hqueue] at hempty
        cases hempty
      exact hs.takeResponse (orderly_of_run hrun).wellFormed hconnected hqueue hrequest
  | request =>
    obtain rfl := Option.some.inj h
    exact hs
  | networkFailure =>
    obtain rfl := Option.some.inj h
    exact hs.disconnect (hpaired.congr rfl rfl rfl id) rfl rfl rfl rfl (Bool.and_false _)
  | clearNext =>
    obtain ⟨error, outer, hloop, hcases⟩ := clearNext_eq_some h
    have hdown : (machine.last tr).isConnected = false := by
      by_contra hup
      have hfree := hs.clearing (Bool.not_eq_false _ ▸ hup)
      rw [hfree] at hloop
      cases hloop
    rcases hcases with ⟨-, rfl⟩ | ⟨ev, rest, -, rfl⟩
    · exact hs.disconnect (hpaired.congr rfl rfl rfl id) rfl rfl rfl rfl hdown
    · have hfailed : ((machine.last tr).trySet ev (.failure error)).Paired :=
        hpaired.trySet fun request hr => by cases hr
      exact hs.disconnect (hfailed.congr rfl rfl rfl id) rfl rfl rfl rfl hdown
  | terminate =>
    obtain rfl := Option.some.inj h
    exact hs.disconnect (hpaired.congr rfl rfl rfl fun _ => rfl) rfl rfl rfl rfl rfl
  | terminateWhenDoneCurrentWork =>
    obtain rfl := Option.some.inj h
    rcases (machine.last tr).terminateWhenDoneCurrentWork_cases with ⟨heq, -⟩ | ⟨v, -, -, heq⟩
    · rw [heq]
      exact hs.disconnect (hpaired.congr rfl rfl rfl fun _ => rfl) rfl rfl rfl rfl rfl
    · rw [heq]
      exact hs.congr (hpaired.congr rfl rfl rfl id) rfl rfl rfl (fun _ hev => hev)
        fun hup => ⟨hup, rfl, rfl, rfl⟩
  | terminateBecauseDone w =>
    obtain ⟨-, -, rfl⟩ := terminateBecauseDone_eq_some h
    exact hs.disconnect (hpaired.congr rfl rfl rfl fun _ => rfl) rfl rfl rfl rfl rfl

theorem inStep_init : machine.init.InStep := by
  constructor
  · constructor
    · intro ev request hresult
      cases hresult
    · intro ev hev
      cases hev
  · exact Nat.le_refl 0
  · intro ev hev
    cases hev
  · intro ev hev
    cases hev
  · exact fun _ => rfl
  · exact fun _ => rfl

theorem inStep_of_guarded {tr : History HttpManager Event} (h : machine.Run tr)
    (hguarded : Machine.Guarded SendsInOrder tr) : (machine.last tr).InStep := by
  induction tr with
  | nil => exact inStep_init
  | cons p tr ih => exact (ih h.1 hguarded.2).step h.1 hguarded.1 h.2

/-- What a step does to the futures. -/
theorem futures_of_step {e : Event} (h : machine.step s e = some t) :
    t.futures = s.futures ∨ t.futures = s.futures.alloc .incomplete ∨
      ∃ ev outcome, t.futures = s.futures.modify ev (FutureResponse.trySet outcome) ∧
        (outcome = .cancelled → e = .cancel ev) := by
  cases e with
  | start =>
    obtain ⟨-, rfl⟩ : _ ∧ { s with isStarted := true } = t := by
      simpa [machine, start] using h
    exact .inl rfl
  | asyncResponseForRequest =>
    rcases asyncResponseForRequest_eq_some h with ⟨-, ⟨-, rfl⟩ | ⟨-, rfl⟩⟩
    · exact .inl rfl
    · exact .inr (.inl rfl)
  | send ev =>
    obtain ⟨-, rfl⟩ := send_eq_some h
    exact .inl rfl
  | sendRaises ev =>
    obtain ⟨-, rfl⟩ := sendRaises_eq_some h
    exact .inl rfl
  | cancel ev =>
    obtain ⟨-, rfl⟩ := cancel_eq_some h
    exact .inr (.inr ⟨ev, .cancelled, rfl, fun _ => rfl⟩)
  | response =>
    obtain ⟨-, -, request, -, ⟨-, rfl⟩ | ⟨ev, rest, -, rfl⟩⟩ := handleResponse_eq_some h
    · exact .inl rfl
    · exact .inr (.inr ⟨ev, .result request, rfl, fun hcancelled => by cases hcancelled⟩)
  | request =>
    obtain rfl := Option.some.inj h
    exact .inl rfl
  | networkFailure =>
    obtain rfl := Option.some.inj h
    exact .inl rfl
  | clearNext =>
    obtain ⟨error, outer, -, ⟨-, rfl⟩ | ⟨ev, rest, -, rfl⟩⟩ := clearNext_eq_some h
    · exact .inl rfl
    · exact .inr (.inr ⟨ev, .failure error, rfl, fun hcancelled => by cases hcancelled⟩)
  | terminate =>
    obtain rfl := Option.some.inj h
    exact .inl rfl
  | terminateWhenDoneCurrentWork =>
    obtain rfl := Option.some.inj h
    rcases s.terminateWhenDoneCurrentWork_cases with ⟨heq, -⟩ | ⟨v, -, -, heq⟩
    · exact .inl (by rw [heq]; rfl)
    · exact .inl (by rw [heq])
  | terminateBecauseDone w =>
    obtain ⟨-, -, rfl⟩ := terminateBecauseDone_eq_some h
    exact .inl rfl

theorem cancelledByCallers_of_run {tr : History HttpManager Event} (h : machine.Run tr) :
    CancelledByCallers tr := by
  induction tr with
  | nil =>
    intro ev hcancelled
    cases hcancelled
  | cons p tr ih =>
    obtain ⟨e, t⟩ := p
    intro ev hcancelled
    rw [Machine.last_cons] at hcancelled
    rw [List.map_cons, List.mem_cons]
    have hbefore : (machine.last tr).futures.get ev = .cancelled →
        .cancel ev = e ∨ .cancel ev ∈ tr.map Prod.fst := fun hget => .inr (ih h.1 ev hget)
    rcases futures_of_step h.2 with hsame | halloc | ⟨ev', outcome, hmodify, hcancel⟩
    · exact hbefore (hsame ▸ hcancelled)
    · rw [halloc, Heap.get_alloc] at hcancelled
      split at hcancelled
      · cases hcancelled
      · exact hbefore hcancelled
    · rw [hmodify, Heap.get_modify] at hcancelled
      split at hcancelled
      · rename_i hev
        unfold FutureResponse.trySet at hcancelled
        split at hcancelled
        · exact hbefore hcancelled
        · left
          rw [hcancel hcancelled, hev]
      · exact hbefore hcancelled

/-- As long as the calls send in the order of the queue, the responses find their requests. -/
theorem paired_of_sendsInOrder {tr : History HttpManager Event} (h : machine.Run tr)
    (hguarded : Machine.Guarded SendsInOrder tr) :
    Machine.Always (fun tr => (machine.last tr).Paired ∧ CancelledByCallers tr) tr := by
  induction tr with
  | nil => exact ⟨inStep_init.toPaired, cancelledByCallers_of_run h⟩
  | cons p tr ih =>
    exact ⟨⟨(inStep_of_guarded h hguarded).toPaired, cancelledByCallers_of_run h⟩,
      ih h.1 hguarded.2⟩

/-- Two threads enqueue in one order, and send in the other. -/
def overtaken : List Event :=
  [.start, .asyncResponseForRequest, .asyncResponseForRequest, .send 1, .send 0, .response]

theorem not_paired : ∃ tr, machine.exec overtaken = some tr ∧ machine.Run tr ∧
    (machine.last tr).futures.get 0 = .result 1 ∧
    ¬ Machine.Always (fun tr => (machine.last tr).Paired ∧ CancelledByCallers tr) tr := by
  have hexec : (machine.exec overtaken).map (fun tr => (machine.last tr).futures.get 0) =
    some (.result 1) := by decide
  obtain ⟨tr, htr, hresult⟩ := Option.map_eq_some_iff.mp hexec
  refine ⟨tr, htr, Machine.run_of_exec htr, hresult, fun h => ?_⟩
  exact absurd (h.last.1.own 0 1 hresult) (by decide)

/-- Two threads enqueue and send in the same order, and the first caller cancels. -/
def notOvertaken : List Event :=
  [.start, .asyncResponseForRequest, .asyncResponseForRequest, .cancel 0, .send 0, .send 1,
    .response, .response]

theorem paired_notOvertaken : ∃ tr, machine.exec notOvertaken = some tr ∧
    (machine.last tr).answered = 2 ∧ (machine.last tr).futures.get 0 = .cancelled ∧
    (machine.last tr).futures.get 1 = .result 1 ∧
    Machine.Always (fun tr => (machine.last tr).Paired ∧ CancelledByCallers tr) tr := by
  have hexec : (machine.exec notOvertaken).map (fun tr =>
      (decide (Machine.Guarded SendsInOrder tr), (machine.last tr).answered,
        (machine.last tr).futures.get 0, (machine.last tr).futures.get 1)) =
    some (true, 2, .cancelled, .result 1) := by decide
  obtain ⟨tr, htr, hvalues⟩ := Option.map_eq_some_iff.mp hexec
  obtain ⟨hguarded, hanswered, hcancelled, hresult⟩ := by simpa only [Prod.mk.injEq] using hvalues
  exact ⟨tr, htr, hanswered, hcancelled, hresult,
    paired_of_sendsInOrder (Machine.run_of_exec htr) (of_decide_eq_true hguarded)⟩

end HttpManager
end SignalIOS.Http
