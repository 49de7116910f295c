import SignalIOS.Util.ObservableOrder

/-! The watchers of an observable value: from when on, and until when, they see its values. -/
namespace SignalIOS
open SignalIOS.Lib

namespace ObservableValue
variable {V C T : Type*}

/-- What has become of the calls of `watchLatestValue`. -/
structure Watching (s : ObservableValue V C T) : Prop where
  submitted : ∀ call ∈ s.watchCalls, s.submitted[call.index]? = some (.watch call.callback)
  known : ∀ call, call ∈ s.beforeWhenCancelledDo ∨ call ∈ s.cancelHandlers ∨
    call ∈ s.cancelHandlersToRun → call ∈ s.watchCalls
  cancelHandlersToRun : ∀ call ∈ s.cancelHandlersToRun,
    ∃ token ∈ s.cancelledTokens, call.untilCancelledToken = some token
  /-- A call with a token waits for the cancellation, or has been cancelled behind it. -/
  pending : ∀ call ∈ s.watchCalls, ∀ token, call.untilCancelledToken = some token →
    call ∈ s.beforeWhenCancelledDo ∨
      (call ∈ s.cancelHandlers ∧ token ∉ s.cancelledTokens) ∨ call ∈ s.cancelHandlersToRun ∨
      ∃ j, call.index < j ∧ s.submitted[j]? = some (.unwatch call.callback)
  caused : ∀ (j : ℕ) callback, s.submitted[j]? = some (.unwatch callback) →
    ∃ call ∈ s.watchCalls, call.callback = callback ∧ call.index < j ∧
      ∃ token ∈ s.cancelledTokens, call.untilCancelledToken = some token

theorem watching_init (value : V) [DecidableEq V] [DecidableEq C] [DecidableEq T] :
    Watching (machine (C := C) (T := T) value).init := by
  constructor
  case submitted => exact fun _ h => absurd h List.not_mem_nil
  case known => 
    rintro call (h | h | h) <;> exact absurd h List.not_mem_nil
  case cancelHandlersToRun => exact fun _ h => absurd h List.not_mem_nil
  case pending => exact fun _ h => absurd h List.not_mem_nil
  case caused =>
    intro j callback h
    cases h

variable {s s' : ObservableValue V C T}

theorem Watching.of_same (h : Watching s) (hsame : SameWatchers s s') : Watching s' := by
  obtain ⟨h1, h2, h3, h4, h5, h6⟩ := hsame
  constructor
  case submitted => rw [h1, h2]; exact h.submitted
  case known => rw [h2, h3, h4, h5]; exact h.known
  case cancelHandlersToRun => rw [h5, h6]; exact h.cancelHandlersToRun
  case pending => rw [h1, h2, h3, h4, h5, h6]; exact h.pending
  case caused => rw [h1, h2, h6]; exact h.caused

@[simp] theorem watchCalls_queueRun (action : QueuedAction V C) :
    (s.queueRun action).watchCalls = s.watchCalls := by
  unfold ObservableValue.queueRun
  split <;> rfl

@[simp] theorem beforeWhenCancelledDo_queueRun (action : QueuedAction V C) :
    (s.queueRun action).beforeWhenCancelledDo = s.beforeWhenCancelledDo := by
  unfold ObservableValue.queueRun
  split <;> rfl

@[simp] theorem cancelHandlers_queueRun (action : QueuedAction V C) :
    (s.queueRun action).cancelHandlers = s.cancelHandlers := by
  unfold ObservableValue.queueRun
  split <;> rfl

@[simp] theorem cancelHandlersToRun_queueRun (action : QueuedAction V C) :
    (s.queueRun action).cancelHandlersToRun = s.cancelHandlersToRun := by
  unfold ObservableValue.queueRun
  split <;> rfl

@[simp] theorem cancelledTokens_queueRun (action : QueuedAction V C) :
    (s.queueRun action).cancelledTokens = s.cancelledTokens := by
  unfold ObservableValue.queueRun
  split <;> rfl

/-- What has been submitted stays where it is. -/
theorem getElem?_append_of_some {actions actions' : List (QueuedAction V C)}
    {action : QueuedAction V C} {j : ℕ} (h : actions[j]? = some action) :
    (actions ++ actions')[j]? = some action := by
  rw [List.getElem?_append_left (List.getElem?_eq_some_iff.mp h).1]
  exact h

theorem getElem?_append_singleton {actions : List (QueuedAction V C)}
    {action action' : QueuedAction V C} {j : ℕ} (h : (actions ++ [action'])[j]? = some action) :
    actions[j]? = some action ∨ (j = actions.length ∧ action' = action) := by
  rcases Nat.lt_or_ge j actions.length with hj | hj
  · rw [List.getElem?_append_left hj] at h
    exact .inl h
  · rw [List.getElem?_append_right hj, List.getElem?_singleton] at h
    split at h
    case isTrue hzero => exact .inr ⟨by omega, Option.some.inj h⟩
    case isFalse => cases h

theorem mem_eraseIdx_of_ne {calls : List (WatchCall C T)} {call call' : WatchCall C T} {i : ℕ}
    (hi : calls[i]? = some call) (hmem : call' ∈ calls) (hne : call' ≠ call) :
    call' ∈ calls.eraseIdx i := by
  obtain ⟨j, hj⟩ := List.mem_iff_getElem?.mp hmem
  apply List.mem_eraseIdx_iff_getElem?.mpr
  refine ⟨j, ?_, hj⟩
  rintro rfl
  exact hne (Option.some.inj (hj.symm.trans hi))

namespace Watching

/-- Another action is submitted, which is no removal. -/
theorem queueRun (h : Watching s) {action : QueuedAction V C}
    (haction : ∀ callback, action ≠ .unwatch callback) : Watching (s.queueRun action) := by
  constructor <;> simp only [submitted_queueRun, watchCalls_queueRun, beforeWhenCancelledDo_queueRun,
    cancelHandlers_queueRun, cancelHandlersToRun_queueRun, cancelledTokens_queueRun]
  case submitted => exact fun call hcall => getElem?_append_of_some (h.submitted call hcall)
  case known => exact h.known
  case cancelHandlersToRun => exact h.cancelHandlersToRun
  case pending =>
    intro call hcall token htoken
    rcases h.pending call hcall token htoken with hbefore | hhandler | hrun | ⟨j, hj, hremoved⟩
    · exact .inl hbefore
    · exact .inr (.inl hhandler)
    · exact .inr (.inr (.inl hrun))
    · exact .inr (.inr (.inr ⟨j, hj, getElem?_append_of_some hremoved⟩))
  case caused =>
    intro j callback hj
    rcases getElem?_append_singleton hj with hj | ⟨-, hnew⟩
    · exact h.caused j callback hj
    · exact absurd hnew (haction callback)

/-- A watcher is registered, and comes to `whenCancelledDo`. -/
theorem watchLatestValue [DecidableEq T] (h : Watching s) (callback : C) (token : Option T) :
    Watching (s.watchLatestValue callback token) := by
  unfold ObservableValue.watchLatestValue
  split
  case isTrue => exact h
  case isFalse =>
    have hqueued : Watching (s.queueRun (.watch callback)) :=
      h.queueRun fun _ hunwatch => by cases hunwatch
    constructor <;> dsimp only
    case submitted =>
      intro call hcall
      rcases List.mem_append.mp hcall with hcall | hcall
      · exact hqueued.submitted call (by rwa [watchCalls_queueRun])
      · obtain rfl := List.mem_singleton.mp hcall
        rw [submitted_queueRun, List.getElem?_append_right (Nat.le_refl _), Nat.sub_self]
        rfl
    case known =>
      simp only [cancelHandlers_queueRun, cancelHandlersToRun_queueRun]
      rintro call (hcall | hcall | hcall)
      · rcases List.mem_append.mp hcall with hcall | hcall
        · exact List.mem_append_left _ (h.known call (.inl hcall))
        · exact List.mem_append_right _ hcall
      · exact List.mem_append_left _ (h.known call (.inr (.inl hcall)))
      · exact List.mem_append_left _ (h.known call (.inr (.inr hcall)))
    case cancelHandlersToRun =>
      rw [cancelHandlersToRun_queueRun, cancelledTokens_queueRun]
      exact h.cancelHandlersToRun
    case pending =>
      simp only [cancelHandlers_queueRun, cancelHandlersToRun_queueRun, cancelledTokens_queueRun]
      intro call hcall token' htoken'
      rcases List.mem_append.mp hcall with hcall | hcall
      · have hpending := hqueued.pending call (by rwa [watchCalls_queueRun]) token' htoken'
        simp only [beforeWhenCancelledDo_queueRun, cancelHandlers_queueRun,
          cancelHandlersToRun_queueRun, cancelledTokens_queueRun] at hpending
        exact hpending.imp_left (List.mem_append_left _)
      · exact .inl (List.mem_append_right _ hcall)
    case caused =>
      intro j callback' hj
      obtain ⟨call, hcall, hcaused⟩ := hqueued.caused j callback' hj
      rw [watchCalls_queueRun] at hcall
      exact ⟨call, List.mem_append_left _ hcall, hcaused⟩

/-- The removal of a cancelled watcher is submitted. Its call is taken from where it waited. -/
theorem remove (h : Watching s) {call : WatchCall C T} {token : T}
    (hcall : call ∈ s.watchCalls) (htoken : call.untilCancelledToken = some token)
    (hcancelled : token ∈ s.cancelledTokens) {before toRun : List (WatchCall C T)}
    (hbefore : ∀ call', call' ∈ before → call' ∈ s.beforeWhenCancelledDo)
    (htoRun : ∀ call', call' ∈ toRun → call' ∈ s.cancelHandlersToRun)
    (hleft : ∀ call', call' ≠ call →
      (call' ∈ s.beforeWhenCancelledDo → call' ∈ before) ∧
      (call' ∈ s.cancelHandlersToRun → call' ∈ toRun)) :
    Watching ({ s with beforeWhenCancelledDo := before, cancelHandlersToRun := toRun }.queueRun
      (.unwatch call.callback)) := by
  have hindex : call.index < s.submitted.length :=
    (List.getElem?_eq_some_iff.mp (h.submitted call hcall)).1
  constructor <;> simp only [submitted_queueRun, watchCalls_queueRun, beforeWhenCancelledDo_queueRun,
    cancelHandlers_queueRun, cancelHandlersToRun_queueRun, cancelledTokens_queueRun]
  case submitted => exact fun call' hcall' => getElem?_append_of_some (h.submitted call' hcall')
  case known =>
    rintro call' (hcall' | hcall' | hcall')
    · exact h.known call' (.inl (hbefore call' hcall'))
    · exact h.known call' (.inr (.inl hcall'))
    · exact h.known call' (.inr (.inr (htoRun call' hcall')))
  case cancelHandlersToRun =>
    exact fun call' hcall' => h.cancelHandlersToRun call' (htoRun call' hcall')
  case pending =>
    intro call' hcall' token' htoken'
    by_cases hsame : call' = call
    · refine .inr (.inr (.inr ⟨s.submitted.length, ?_, ?_⟩))
      · rw [hsame]
        exact hindex
      · rw [List.getElem?_append_right (Nat.le_refl _), Nat.sub_self, hsame]
        rfl
    · obtain ⟨hinBefore, hinToRun⟩ := hleft call' hsame
      rcases h.pending call' hcall' token' htoken' with hwaits | hhandler | hrun | ⟨j, hj, hremoved⟩
      · exact .inl (hinBefore hwaits)
      · exact .inr (.inl hhandler)
      · exact .inr (.inr (.inl (hinToRun hrun)))
      · exact .inr (.inr (.inr ⟨j, hj, getElem?_append_of_some hremoved⟩))
  case caused =>
    intro j callback hj
    rcases getElem?_append_singleton hj with hj | ⟨rfl, hnew⟩
    · exact h.caused j callback hj
    · exact ⟨call, hcall, QueuedAction.unwatch.inj hnew, hindex, token, hcancelled, htoken⟩

theorem whenCancelledDo [DecidableEq T] (h : Watching s) {i : ℕ}
    (hstep : s.whenCancelledDo i = some s') : Watching s' := by
  unfold ObservableValue.whenCancelledDo at hstep
  split at hstep
  case h_2 => cases hstep
  case h_1 call hi =>
    have hmem : call ∈ s.beforeWhenCancelledDo := List.mem_of_getElem? hi
    have hcall : call ∈ s.watchCalls := h.known call (.inl hmem)
    have hkept (call' : WatchCall C T) (hcall' : call' ∈ s.beforeWhenCancelledDo.eraseIdx i) :
        call' ∈ s.beforeWhenCancelledDo := List.mem_of_mem_eraseIdx hcall'
    dsimp only at hstep
    split at hstep
    case h_1 hnone =>
      obtain rfl := Option.some.inj hstep
      constructor
      case submitted => exact h.submitted
      case known => exact fun call' hcall' => h.known call' (hcall'.imp_left (hkept call'))
      case cancelHandlersToRun => exact h.cancelHandlersToRun
      case pending =>
        intro call' hcall' token htoken
        have hne : call' ≠ call := by
          rintro rfl
          cases hnone.symm.trans htoken
        exact (h.pending call' hcall' token htoken).imp_left fun hwaits =>
          mem_eraseIdx_of_ne hi hwaits hne
      case caused => exact h.caused
    case h_2 token htoken =>
      split at hstep
      case isTrue hcancelled =>
        obtain rfl := Option.some.inj hstep
        apply h.remove hcall htoken hcancelled hkept fun _ hcall' => hcall'
        intro call' hne
        exact ⟨fun hwaits => mem_eraseIdx_of_ne hi hwaits hne, id⟩
      case isFalse hnot =>
        obtain rfl := Option.some.inj hstep
        constructor
        case submitted => exact h.submitted
        case known =>
          rintro call' (hcall' | hcall' | hcall')
          · exact h.known call' (.inl (hkept call' hcall'))
          · rcases List.mem_append.mp hcall' with hcall' | hcall'
            · exact h.known call' (.inr (.inl hcall'))
            · obtain rfl := List.mem_singleton.mp hcall'
              exact hcall
          · exact h.known call' (.inr (.inr hcall'))
        case cancelHandlersToRun => exact h.cancelHandlersToRun
        case pending =>
          intro call' hcall' token' htoken'
          by_cases hsame : call' = call
          · right; left
            constructor
            · rw [hsame]
              exact List.mem_append_right _ List.mem_cons_self
            · rw [hsame, htoken] at htoken'
              rwa [← Option.some.inj htoken']
          · rcases h.pending call' hcall' token' htoken' with hwaits | ⟨hhandler, hnot'⟩ | hrun
            · exact .inl (mem_eraseIdx_of_ne hi hwaits hsame)
            · exact .inr (.inl ⟨List.mem_append_left _ hhandler, hnot'⟩)
            · exact .inr (.inr hrun)
        case caused => exact h.caused

theorem cancel [DecidableEq T] (h : Watching s) (token : T) : Watching (s.cancel token) := by
  constructor
  case submitted => exact h.submitted
  case known =>
    rintro call (hcall | hcall | hcall)
    · exact h.known call (.inl hcall)
    · exact h.known call (.inr (.inl (List.mem_of_mem_filter hcall)))
    · rcases List.mem_append.mp hcall with hcall | hcall
      · exact h.known call (.inr (.inr hcall))
      · exact h.known call (.inr (.inl (List.mem_of_mem_filter hcall)))
  case cancelHandlersToRun =>
    intro call hcall
    rcases List.mem_append.mp hcall with hcall | hcall
    · obtain ⟨token', hmem, htoken'⟩ := h.cancelHandlersToRun call hcall
      exact ⟨token', Finset.mem_insert_of_mem hmem, htoken'⟩
    · have htoken := of_decide_eq_true (List.mem_filter.mp hcall).2
      exact ⟨token, Finset.mem_insert_self _ _, htoken⟩
  case pending =>
    intro call hcall token' htoken'
    rcases h.pending call hcall token' htoken' with hwaits | ⟨hhandler, hnot⟩ | hrun | hremoved
    · exact .inl hwaits
    · by_cases hsame : token' = token
      · refine .inr (.inr (.inl (List.mem_append_right _ ?_)))
        apply List.mem_filter.mpr
        exact ⟨hhandler, decide_eq_true (htoken'.trans (congrArg some hsame))⟩
      · refine .inr (.inl ⟨?_, ?_⟩)
        · apply List.mem_filter.mpr
          refine ⟨hhandler, decide_eq_true ?_⟩
          rw [htoken']
          exact fun heq => hsame (Option.some.inj heq)
        · exact fun hmem => (Finset.mem_insert.mp hmem).elim hsame hnot
    · exact .inr (.inr (.inl (List.mem_append_left _ hrun)))
    · exact .inr (.inr (.inr hremoved))
  case caused =>
    intro j callback hj
    obtain ⟨call, hcall, hcallback, hlt, token', hmem, htoken'⟩ := h.caused j callback hj
    exact ⟨call, hcall, hcallback, hlt, token', Finset.mem_insert_of_mem hmem, htoken'⟩

theorem runCancelHandler (h : Watching s) {i : ℕ} (hstep : s.runCancelHandler i = some s') :
    Watching s' := by
  unfold ObservableValue.runCancelHandler at hstep
  split at hstep
  case h_2 => cases hstep
  case h_1 call hi =>
    obtain rfl := Option.some.inj hstep
    have hmem : call ∈ s.cancelHandlersToRun := List.mem_of_getElem? hi
    obtain ⟨token, hcancelled, htoken⟩ := h.cancelHandlersToRun call hmem
    apply h.remove (h.known call (.inr (.inr hmem))) htoken hcancelled fun _ hcall' => hcall'
    · exact fun call' hcall' => List.mem_of_mem_eraseIdx hcall'
    · intro call' hne
      exact ⟨id, fun hrun => mem_eraseIdx_of_ne hi hrun hne⟩

theorem step [DecidableEq V] [DecidableEq C] [DecidableEq T] (h : Watching s) {e : Event V C T}
    (hstep : s.step e = some s') : Watching s' := by
  cases e with
  | updateValue value =>
    obtain rfl := Option.some.inj hstep
    exact h.queueRun fun _ hunwatch => by cases hunwatch
  | adjustValue adjustment =>
    obtain rfl := Option.some.inj hstep
    exact h.queueRun fun _ hunwatch => by cases hunwatch
  | sealValue =>
    obtain rfl := Option.some.inj hstep
    exact h.queueRun fun _ hunwatch => by cases hunwatch
  | watchLatestValue callback token =>
    obtain rfl := Option.some.inj hstep
    exact h.watchLatestValue callback token
  | whenCancelledDo i => exact h.whenCancelledDo hstep
  | cancel token =>
    obtain rfl := Option.some.inj hstep
    exact h.cancel token
  | runCancelHandler i => exact h.runCancelHandler hstep
  | _ => exact h.of_same (sameWatchers_step (by exact trivial) hstep)

end Watching
variable [DecidableEq V] [DecidableEq C]

/-- The callback watches behind the actions: it has been registered, and not been removed since. -/
def Watches (actions : List (QueuedAction V C)) (callback : C) : Prop :=
  ∃ before after, actions = before ++ .watch callback :: after ∧ .unwatch callback ∉ after

omit [DecidableEq V] [DecidableEq C] in
theorem Watches.of_append_singleton {actions : List (QueuedAction V C)} {action : QueuedAction V C}
    {callback : C} (h : Watches (actions ++ [action]) callback) :
    action = .watch callback ∨ (Watches actions callback ∧ action ≠ .unwatch callback) := by
  obtain ⟨before, after, hsplit, hnot⟩ := h
  rcases List.eq_nil_or_concat after with rfl | ⟨after, last, rfl⟩
  · exact .inl (List.append_inj_right' hsplit rfl |> List.cons.inj |>.1)
  · rw [List.concat_eq_append] at hsplit hnot
    rw [← List.cons_append, ← List.append_assoc] at hsplit
    obtain ⟨hactions, hlast⟩ := List.append_inj' hsplit rfl
    obtain rfl := (List.cons.inj hlast).1
    rw [List.mem_append, List.mem_singleton, not_or] at hnot
    exact .inr ⟨⟨before, after, hactions, hnot.1⟩, Ne.symm hnot.2⟩

/-- Who watches has last seen the current value. -/
theorem seen_of_watches {value : V} {actions : List (QueuedAction V C)} {callback : C}
    (hunsealed : QueuedAction.sealValue ∉ actions) (h : Watches actions callback) :
    callback ∈ (SequentialValue.performAll { currentValue := value } actions).watching ∧
      ((SequentialValue.performAll { currentValue := value } actions).seen callback).getLast?.map
        (·.value) = some
          (SequentialValue.performAll { currentValue := value } actions).currentValue := by
  induction actions using List.reverseRecOn with
  | nil =>
    obtain ⟨before, after, hsplit, -⟩ := h
    simp at hsplit
  | append_singleton actions action ih =>
    rw [List.mem_append, not_or, List.mem_singleton] at hunsealed
    have hsealed := SequentialValue.sealed_performAll
      (s := { currentValue := value }) rfl hunsealed.1
    rw [SequentialValue.performAll_append, SequentialValue.performAll_singleton]
    generalize SequentialValue.performAll { currentValue := value } actions = s at ih hsealed
    rcases h.of_append_singleton with rfl | ⟨hwatches, hkept⟩
    · dsimp only [SequentialValue.perform]
      rw [if_neg (by rw [hsealed]; exact Bool.false_ne_true), if_pos rfl]
      exact ⟨Finset.mem_insert_self _ _, by simp⟩
    · obtain ⟨hmem, hlast⟩ := ih hunsealed.1 hwatches
      have hassign (newValue : V) : callback ∈ (s.assignValue newValue).watching ∧
          ((s.assignValue newValue).seen callback).getLast?.map (·.value) =
            some (s.assignValue newValue).currentValue := by
        unfold SequentialValue.assignValue
        split
        · exact ⟨hmem, hlast⟩
        · exact ⟨hmem, by simp [hmem]⟩
      cases action with
      | watch callback' =>
        dsimp only [SequentialValue.perform]
        rw [if_neg (by rw [hsealed]; exact Bool.false_ne_true)]
        refine ⟨Finset.mem_insert_of_mem hmem, ?_⟩
        split
        · simp
        · rwa [List.append_nil]
      | unwatch callback' =>
        have hne : callback ≠ callback' := by
          rintro rfl
          exact hkept rfl
        exact ⟨Finset.mem_erase.mpr ⟨hne, hmem⟩, hlast⟩
      | updateValue newValue => exact hassign newValue
      | adjustValue adjustment => exact hassign _
      | sealValue => exact absurd rfl hunsealed.2

/-- What is promised about the watchers of an observable value that began with `value`. -/
structure Serialized (value : V) (s : ObservableValue V C T) : Prop where
  oneAtATime : s.running.length ≤ 1
  inOrder : s.submitted = s.finished ++ s.running.map (·.action) ++ s.queuedActionsToRun
  /-- No callback is being called when an action begins. -/
  afterReturn : ∀ i s', s.runAction i = some s' → ∀ r ∈ s.running, ∃ action, r = ⟨action, .dequeued⟩
  /-- A callback has been called as though all finished actions had been performed, one after the
  other, and as the one that has begun performs. -/
  seen : ∀ callback,
    (SequentialValue.performAll { currentValue := value } s.finished).seen callback <+:
        s.seen callback ∧
      s.seen callback <+:
        (SequentialValue.performAll { currentValue := value } s.begun).seen callback
  /-- A cancellation has submitted the removal, behind the registration. -/
  cancelled : ∀ call ∈ s.watchCalls, s.submitted[call.index]? = some (.watch call.callback) ∧
    ∀ token ∈ s.cancelledTokens, call.untilCancelledToken = some token →
      call ∈ s.beforeWhenCancelledDo ∨ call ∈ s.cancelHandlersToRun ∨
        ∃ j, call.index < j ∧ s.submitted[j]? = some (.unwatch call.callback)
  /-- Nothing but a cancellation submits a removal. -/
  caused : ∀ (j : ℕ) callback, s.submitted[j]? = some (.unwatch callback) →
    ∃ call ∈ s.watchCalls, call.callback = callback ∧ call.index < j ∧
      ∃ token ∈ s.cancelledTokens, call.untilCancelledToken = some token
  quiescent : s.running = [] → s.finished = s.submitted ∧ ∀ callback,
    Watches s.submitted callback →
      (s.seen callback).getLast?.map (·.value) = some s.currentValue

/-- What has been seen lies between what the finished actions and the begun ones show. -/
theorem Progress.prefix {before now : SequentialValue V C} {r : RunningAction V C}
    (h : Progress before now r) (callback : C) : before.seen callback <+: now.seen callback ∧
      now.seen callback <+: ((match r.phase with
        | .dequeued => before
        | _ => before.perform r.action).seen callback) := by
  obtain ⟨action, phase⟩ := r
  cases phase with
  | dequeued =>
    obtain rfl : now = before := h
    exact ⟨List.prefix_refl _, List.prefix_refl _⟩
  | registering =>
    obtain ⟨-, rfl⟩ := h
    exact ⟨SequentialValue.seen_perform action callback, List.prefix_refl _⟩
  | adjusting oldValue =>
    obtain ⟨-, -, rfl⟩ := h
    exact ⟨List.prefix_refl _, SequentialValue.seen_perform action callback⟩
  | notifying called remaining =>
    obtain ⟨-, hinitial, hperform⟩ := h
    refine ⟨hinitial callback, ?_⟩
    dsimp only
    rw [hperform]
    exact List.prefix_append _ _
  | returned =>
    obtain rfl : before.perform action = now := h
    exact ⟨SequentialValue.seen_perform action callback, List.prefix_refl _⟩

theorem performAll_begun {value : V} {r : RunningAction V C} (hrunning : s.running = [r]) :
    SequentialValue.performAll { currentValue := value } s.begun = match r.phase with
      | .dequeued => .performAll { currentValue := value } s.finished
      | _ => (SequentialValue.performAll { currentValue := value } s.finished).perform
          r.action := by
  unfold begun
  rw [hrunning]
  obtain ⟨action, phase⟩ := r
  cases phase with
  | dequeued => exact congrArg _ (List.append_nil _)
  | _ => exact SequentialValue.performAll_append _ _

namespace Serial
variable {value : V}

theorem seen_between (h : Serial value s) (callback : C) :
    (SequentialValue.performAll { currentValue := value } s.finished).seen callback <+:
        s.seen callback ∧
      s.seen callback <+:
        (SequentialValue.performAll { currentValue := value } s.begun).seen callback := by
  rcases h.running with ⟨hrunning, -, -, hseq⟩ | ⟨r, hrunning, -, hprogress⟩
  · have hbegun : s.begun = s.finished := by
      unfold begun
      rw [hrunning]
      exact List.append_nil _
    rw [hbegun, ← hseq]
    exact ⟨List.prefix_refl _, List.prefix_refl _⟩
  · rw [performAll_begun hrunning]
    exact hprogress.prefix callback

/-- Actions begin in the order of their submission. -/
theorem begun_prefix (h : Serial value s) : s.begun <+: s.submitted := by
  rw [h.submitted]
  rcases h.running with ⟨hrunning, -⟩ | ⟨⟨action, phase⟩, hrunning, -⟩ <;> unfold begun <;>
    rw [hrunning]
  · exact List.prefix_append _ _
  · rw [List.append_assoc]
    apply List.prefix_append_right_inj _ |>.mpr
    cases phase with
    | dequeued => exact List.nil_prefix
    | _ => exact List.prefix_append _ _

/-- What has been seen is the beginning of what the submitted actions will show. -/
theorem seen_prefix (h : Serial value s) (callback : C) : s.seen callback <+:
    (SequentialValue.performAll { currentValue := value } s.submitted).seen callback := by
  obtain ⟨later, hlater⟩ := h.begun_prefix
  rw [← hlater, SequentialValue.performAll_append]
  exact (h.seen_between callback).2.trans (SequentialValue.seen_performAll later callback)

end Serial

variable [DecidableEq T]

/-- A token that has been cancelled stays so. -/
theorem cancelledTokens_step {e : Event V C T} (h : s.step e = some s') :
    s.cancelledTokens ⊆ s'.cancelledTokens := by
  cases e with
  | watchLatestValue callback token =>
    obtain rfl := Option.some.inj h
    unfold ObservableValue.watchLatestValue
    split
    · exact Finset.Subset.refl _
    · dsimp only
      rw [cancelledTokens_queueRun]
  | whenCancelledDo i =>
    simp only [step, whenCancelledDo] at h
    split at h
    case h_2 => cases h
    case h_1 =>
      split at h
      case h_1 =>
        obtain rfl := Option.some.inj h
        exact Finset.Subset.refl _
      case h_2 =>
        split at h <;> obtain rfl := Option.some.inj h
        · rw [cancelledTokens_queueRun]
        · exact Finset.Subset.refl _
  | cancel token =>
    obtain rfl := Option.some.inj h
    exact Finset.subset_insert _ _
  | runCancelHandler i =>
    simp only [step, runCancelHandler] at h
    split at h
    case h_2 => cases h
    case h_1 =>
      obtain rfl := Option.some.inj h
      rw [cancelledTokens_queueRun]
  | updateValue value =>
    obtain rfl := Option.some.inj h
    rw [cancelledTokens_queueRun]
  | adjustValue adjustment =>
    obtain rfl := Option.some.inj h
    rw [cancelledTokens_queueRun]
  | sealValue =>
    obtain rfl := Option.some.inj h
    rw [cancelledTokens_queueRun]
  | runAction i => rw [(sameWatchers_step (e := .runAction i) trivial h).cancelledTokens]
  | adjustmentReturns i =>
    rw [(sameWatchers_step (e := .adjustmentReturns i) trivial h).cancelledTokens]
  | callNext i callback =>
    rw [(sameWatchers_step (e := .callNext i callback) trivial h).cancelledTokens]
  | callbackReturns i =>
    rw [(sameWatchers_step (e := .callbackReturns i) trivial h).cancelledTokens]
  | tryDequeue i => rw [(sameWatchers_step (e := .tryDequeue i) trivial h).cancelledTokens]

theorem submitted_subset {e : Event V C T} (h : s.step e = some s') :
    s.submitted ⊆ s'.submitted := by
  rcases submitted_step h with heq | ⟨action, -, heq⟩ <;> rw [heq]
  · exact List.Subset.refl _
  · exact List.subset_append_left _ _

theorem sealValue_notMem_submitted {value : V}
    {tr : History (ObservableValue V C T) (Event V C T)} (h : (machine value).Run tr)
    (hunsealed : ∀ p ∈ tr, p.1 ≠ .sealValue) :
    QueuedAction.sealValue ∉ ((machine value).last tr).submitted := by
  induction tr with
  | nil => exact List.not_mem_nil
  | cons p tr ih =>
    obtain ⟨hrun, hstep⟩ := h
    have ih := ih hrun fun q hq => hunsealed q (List.mem_cons_of_mem _ hq)
    rw [Machine.last_cons]
    rcases submitted_step hstep with heq | ⟨action, hsubmits, heq⟩
    · rwa [heq]
    · rw [heq, List.mem_append, List.mem_singleton, not_or]
      refine ⟨ih, ?_⟩
      rintro rfl
      have hevent := hunsealed p List.mem_cons_self
      generalize p.1 = e at hsubmits hevent
      cases e with
      | sealValue => exact hevent rfl
      | updateValue value => cases hsubmits
      | adjustValue adjustment => cases hsubmits
      | watchLatestValue callback token => cases hsubmits
      | whenCancelledDo i =>
        obtain ⟨callback, hcallback⟩ := hsubmits
        cases hcallback
      | runCancelHandler i =>
        obtain ⟨callback, hcallback⟩ := hsubmits
        cases hcallback
      | _ => exact hsubmits.elim

/-- In whatever order values are updated, adjusted and watched, and watchers are cancelled, within
callbacks and on other threads. -/
theorem serialized_of_run (value : V) {tr : History (ObservableValue V C T) (Event V C T)}
    (h : (machine value).Run tr) (hunsealed : ∀ p ∈ tr, p.1 ≠ .sealValue) :
    Serialized value ((machine value).last tr) := by
  have hnotMem := sealValue_notMem_submitted h hunsealed
  have hserial := serial_of_run h (SequentialValue.neverRaises_of_notSealed hnotMem)
  have hwatching : Watching ((machine value).last tr) :=
    h.state_invariant (watching_init value) fun _ _ _ hI hstep => hI.step hstep
  generalize (machine value).last tr = s at hnotMem hserial hwatching
  constructor
  case oneAtATime =>
    rcases hserial.running with ⟨hrunning, -⟩ | ⟨r, hrunning, -⟩ <;> rw [hrunning] <;> simp
  case inOrder => exact hserial.submitted
  case afterReturn =>
    intro i s' hstep r hr
    unfold runAction at hstep
    split at hstep
    case h_2 => cases hstep
    case h_1 action hi =>
      rw [(hserial.running_eq hi).1] at hr
      exact ⟨action, List.mem_singleton.mp hr⟩
  case seen =>
    exact hserial.seen_between
  case cancelled =>
    intro call hcall
    refine ⟨hwatching.submitted call hcall, fun token hcancelled htoken => ?_⟩
    rcases hwatching.pending call hcall token htoken with hwaits | ⟨-, hnot⟩ | hremoved
    · exact .inl hwaits
    · exact absurd hcancelled hnot
    · exact .inr hremoved
  case caused => exact hwatching.caused
  case quiescent =>
    intro hidle
    rcases hserial.running with ⟨-, -, hqueued, hseq⟩ | ⟨r, hrunning, -⟩
    · have hfinished : s.finished = s.submitted := by
        rw [hserial.submitted, hidle, hqueued]
        simp
      refine ⟨hfinished, fun callback hwatches => ?_⟩
      rw [hfinished] at hseq
      have hseen := (@seen_of_watches V C _ _ value _ callback hnotMem hwatches).2
      rwa [← hseq] at hseen
    · rw [hidle] at hrunning
      cases hrunning

/-- A callback updates the value, and cancels itself, while it is being called. -/
def reentrantUpdate : List (Event ℕ ℕ ℕ) :=
  [.watchLatestValue 1 (some 0), .whenCancelledDo 0, .runAction 0, .callbackReturns 0,
    .tryDequeue 0, .updateValue 5, .runAction 0, .callNext 0 1, .updateValue 7, .cancel 0,
    .runCancelHandler 0, .updateValue 8, .callbackReturns 0, .tryDequeue 0, .runAction 0,
    .callNext 0 1, .callbackReturns 0, .tryDequeue 0, .runAction 0, .tryDequeue 0, .runAction 0,
    .tryDequeue 0]

theorem serialized_reentrantUpdate : ∃ tr, (machine 0).exec reentrantUpdate = some tr ∧
    (((machine 0).last tr).seen 1).map (·.value) = [0, 5, 7] ∧
    Serialized 0 ((machine 0).last tr) := by
  have hexec : ((machine 0).exec reentrantUpdate).map (fun tr =>
    (((machine 0).last tr).seen 1).map (·.value)) = some [0, 5, 7] := by decide
  obtain ⟨tr, htr, hseen⟩ := Option.map_eq_some_iff.mp hexec
  refine ⟨tr, htr, hseen, serialized_of_run 0 (Machine.run_of_exec htr) fun p hp => ?_⟩
  have hevent : p.1 ∈ reentrantUpdate.reverse := by
    rw [← Machine.map_fst_of_exec htr]
    exact List.mem_map_of_mem hp
  have hall : ∀ e ∈ reentrantUpdate.reverse, e ≠ .sealValue := by simp [reentrantUpdate]
  exact hall _ hevent

end ObservableValue
end SignalIOS
