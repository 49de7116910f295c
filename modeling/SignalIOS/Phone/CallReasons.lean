import SignalIOS.Phone.CallEnding

/-! What the progress and the terminations of a call come from: they are no others than those that
the calls of its methods were made with. -/
namespace SignalIOS.Phone
open SignalIOS.Lib

namespace CallController
variable {I C T : Type*} {Q Q' : CallProgressType → Prop} {J J' : CallTermination I → Prop}

/-- The action keeps the type, or leads to one with the property. -/
def Keeps (Q : CallProgressType → Prop) : QueuedAction CallProgress C → Prop
  | .updateValue value => Q value.type
  | .adjustValue adjustment =>
    ∀ value, (adjustment value).type = value.type ∨ Q (adjustment value).type
  | _ => True

theorem keeps_advance {type : CallProgressType} (htype : Q type) (address : ℕ) :
    Keeps (C := C) Q (.adjustValue (advance type address)) := by
  intro value
  unfold advance
  split
  · exact .inl rfl
  · exact .inr htype

/-- Whoever watches sees no other types. -/
theorem performed_of_keeps [DecidableEq C] (hinit : Q .connecting)
    {actions : List (QueuedAction CallProgress C)} (h : ∀ action ∈ actions, Keeps Q action) :
    Q (performed actions).currentValue.type ∧
      ∀ callback, ∀ x ∈ (performed actions).seen callback, Q x.value.type := by
  induction actions using List.reverseRecOn with
  | nil =>
    constructor
    · exact hinit
    · intro callback x hx
      cases hx
  | append_singleton actions action ih =>
    obtain ⟨hnow, hseen⟩ := ih fun a ha => h a (List.mem_append_left _ ha)
    have haction : Keeps Q action := h action (List.mem_append_right _ (List.mem_singleton_self _))
    have hassign {newValue : CallProgress} (hnew : Q newValue.type) :
        Q ((performed actions).assignValue newValue).currentValue.type ∧
          ∀ callback, ∀ x ∈ ((performed actions).assignValue newValue).seen callback,
            Q x.value.type := by
      unfold SequentialValue.assignValue
      split
      · exact ⟨hnow, hseen⟩
      · constructor
        · exact hnew
        · intro callback x hx
          rcases List.mem_append.mp hx with hx | hx
          · exact hseen callback x hx
          · split at hx
            · obtain rfl := List.mem_singleton.mp hx
              exact hnew
            · cases hx
    rw [performed, SequentialValue.performAll_append, SequentialValue.performAll_singleton]
    cases action with
    | watch callback =>
      refine ⟨hnow, fun c x hx => ?_⟩
      rcases List.mem_append.mp hx with hx | hx
      · exact hseen c x hx
      · split at hx
        · obtain rfl := List.mem_singleton.mp hx
          exact hnow
        · cases hx
    | unwatch callback => exact ⟨hnow, hseen⟩
    | updateValue value => exact hassign haction
    | adjustValue adjustment =>
      rcases haction (performed actions).currentValue with hsame | hnew
      · rw [← hsame] at hnow
        exact hassign hnow
      · exact hassign hnew
    | sealValue => exact ⟨hnow, hseen⟩

/-- What a step of a call may need: the types it advances to, and the terminations it can lead to. -/
def CallStep.Allowed (Q : CallProgressType → Prop) (J : CallTermination I → Prop) :
    CallStep I → Prop
  | .unrestrictedAdvanceCallProgressTo type => Q type
  | .denyAndTerminate => J ⟨.rejectedLocal, none, none⟩ ∧ J ⟨.hangupLocal, none, none⟩
  | .rejectionOrRemoteHangup failureInfo relatedInfo =>
    J ⟨.rejectedRemote, failureInfo, relatedInfo⟩ ∧ J ⟨.hangupRemote, failureInfo, relatedInfo⟩
  | .setTermination t | .failAcceptedOrDenied t => J t
  | _ => True

/-- Everything that has happened to a call, and all that is under way, is allowed. -/
structure Allowed (Q : CallProgressType → Prop) (J : CallTermination I → Prop)
    (s : CallController I C T) : Prop where
  submitted : ∀ action ∈ s.progress.submitted, Keeps Q action
  inProgress : ∀ p ∈ s.inProgress, ∀ next ∈ p, CallStep.Allowed Q J next
  terminations : ∀ t ∈ s.terminations, J t
  termination : ∀ t, s.termination = some t → J t
  failed : ∀ t, s.interactiveCallAcceptedOrDenied = some (.error t) → J t
  denied : s.interactiveCallAcceptedOrDenied = some (.ok false) → J ⟨.rejectedLocal, none, none⟩

theorem CallStep.Allowed.mono {next : CallStep I} (h : CallStep.Allowed Q J next)
    (hQ : ∀ type, Q type → Q' type) (hJ : ∀ t, J t → J' t) : CallStep.Allowed Q' J' next := by
  cases next with
  | unrestrictedAdvanceCallProgressTo type => exact hQ _ h
  | denyAndTerminate => exact ⟨hJ _ h.1, hJ _ h.2⟩
  | rejectionOrRemoteHangup failureInfo relatedInfo => exact ⟨hJ _ h.1, hJ _ h.2⟩
  | setTermination t => exact hJ _ h
  | failAcceptedOrDenied t => exact hJ _ h
  | _ => trivial

theorem allowed_terminate (hQ : Q .terminated) {t : CallTermination I} (ht : J t) :
    ∀ next ∈ terminate t, CallStep.Allowed Q J next := by
  simp only [terminate, List.forall_mem_cons]
  exact ⟨ht, hQ, ht, trivial, trivial, trivial, List.forall_mem_nil _⟩

/-- What a method needs, of the same kind. -/
def Method.Allowed (Q : CallProgressType → Prop) (J : CallTermination I → Prop) : Method I → Prop
  | .advanceCallProgressTo type => Q type
  | .hangupOrDenyCall => J ⟨.rejectedLocal, none, none⟩ ∧ J ⟨.hangupLocal, none, none⟩
  | .acceptCall => True
  | .advanceCallProgressToConversingWithShortAuthenticationString _ => Q .talking
  | .terminateWithRejectionOrRemoteHangup failureInfo relatedInfo =>
    J ⟨.rejectedRemote, failureInfo, relatedInfo⟩ ∧ J ⟨.hangupRemote, failureInfo, relatedInfo⟩
  | .terminateWithReason t => J t
  | .backgroundTimeExpired => J ⟨.backgroundTimeExpired, none, none⟩

theorem Method.Allowed.steps (hQ : Q .terminated) {method : Method I}
    (h : Method.Allowed Q J method) : ∀ next ∈ method.steps, CallStep.Allowed Q J next := by
  cases method with
  | advanceCallProgressTo type =>
    dsimp only [Method.steps]
    split
    · exact List.forall_mem_singleton.mpr h
    · exact List.forall_mem_nil _
  | hangupOrDenyCall => exact List.forall_mem_singleton.mpr h
  | acceptCall => exact List.forall_mem_singleton.mpr trivial
  | advanceCallProgressToConversingWithShortAuthenticationString sas =>
    exact List.forall_mem_cons.mpr ⟨trivial, List.forall_mem_singleton.mpr h⟩
  | terminateWithRejectionOrRemoteHangup failureInfo relatedInfo =>
    exact List.forall_mem_singleton.mpr h
  | terminateWithReason t => exact allowed_terminate hQ h
  | backgroundTimeExpired => exact allowed_terminate hQ h

theorem Keeps.mono {action : QueuedAction CallProgress C} (h : Keeps Q action)
    (hQ : ∀ type, Q type → Q' type) : Keeps Q' action := by
  cases action with
  | updateValue value => exact hQ _ h
  | adjustValue adjustment => exact fun value => (h value).imp_right (hQ _)
  | _ => trivial

theorem Allowed.mono {s : CallController I C T} (h : Allowed Q J s)
    (hQ : ∀ type, Q type → Q' type) (hJ : ∀ t, J t → J' t) : Allowed Q' J' s where
  submitted action haction := (h.submitted action haction).mono hQ
  inProgress p hp next hnext := (h.inProgress p hp next hnext).mono hQ hJ
  terminations t ht := hJ t (h.terminations t ht)
  termination t ht := hJ t (h.termination t ht)
  failed t ht := hJ t (h.failed t ht)
  denied hdenied := hJ _ (h.denied hdenied)

/-- The actions that are submitted from outside change no value. -/
theorem keeps_of_submits {e : ObservableValue.Event CallProgress C T} (he : changesValue e = false)
    {action : QueuedAction CallProgress C} (h : e.Submits action) : Keeps Q action := by
  cases e with
  | watchLatestValue callback token =>
    obtain rfl : action = .watch callback := h
    trivial
  | whenCancelledDo i =>
    obtain ⟨callback, rfl⟩ := h
    trivial
  | runCancelHandler i =>
    obtain ⟨callback, rfl⟩ := h
    trivial
  | updateValue value => cases he
  | adjustValue adjustment => cases he
  | sealValue => cases he
  | _ => exact h.elim

theorem Allowed.submit {s : CallController I C T} (h : Allowed Q J s) {action : QueuedAction CallProgress C}
    (haction : Keeps Q action) :
    ∀ a ∈ (s.progress.queueRun action).submitted, Keeps Q a := by
  rw [ObservableValue.submitted_queueRun]
  intro a ha
  rcases List.mem_append.mp ha with ha | ha
  · exact h.submitted a ha
  · rwa [List.mem_singleton.mp ha]

variable [DecidableEq C] [DecidableEq T] {s s' : CallController I C T}

theorem allowed_init (canceller : T) : Allowed Q J (machine (I := I) (C := C) canceller).init where
  submitted _ haction := absurd haction List.not_mem_nil
  inProgress _ hp := absurd hp List.not_mem_nil
  terminations _ ht := absurd ht List.not_mem_nil
  termination _ ht := by cases ht
  failed _ ht := by cases ht
  denied hdenied := by cases hdenied

omit [DecidableEq C] in
/-- Executing what is allowed leads to nothing else. -/
theorem Allowed.execute (hQ : Q .terminated) (h : Allowed Q J s) {i : ℕ} {first : CallStep I}
    {later : List (CallStep I)} (hi : s.inProgress[i]? = some (first :: later)) :
    Allowed Q J { (s.execute later first).1 with
      inProgress := s.inProgress.set i (s.execute later first).2 } := by
  have hp := h.inProgress _ (List.mem_of_getElem? hi)
  have hfirst : CallStep.Allowed Q J first := hp first List.mem_cons_self
  have hlater : ∀ next ∈ later, CallStep.Allowed Q J next := fun next hnext =>
    hp next (List.mem_cons_of_mem _ hnext)
  have hset {rest : List (CallStep I)} (hrest : ∀ next ∈ rest, CallStep.Allowed Q J next) :
      ∀ p ∈ s.inProgress.set i rest, ∀ next ∈ p, CallStep.Allowed Q J next := by
    intro p hmem
    rcases List.mem_or_eq_of_mem_set hmem with hmem | rfl
    · exact h.inProgress p hmem
    · exact hrest
  cases first with
  | unrestrictedAdvanceCallProgressTo type =>
    exact ⟨h.submit (keeps_advance hfirst _), hset hlater, h.terminations, h.termination, h.failed,
      h.denied⟩
  | denyAndTerminate =>
    refine ⟨h.submitted, hset (allowed_terminate hQ ?_), h.terminations, h.termination, ?_, ?_⟩
    · split
      · exact hfirst.1
      · exact hfirst.2
    · intro t ht
      rcases trySet_eq_some ht with ht | ht
      · exact h.failed t ht
      · cases ht
    · exact fun _ => hfirst.1
  | acceptCall =>
    refine ⟨h.submitted, hset hlater, h.terminations, h.termination, ?_, ?_⟩
    · intro t ht
      rcases trySet_eq_some ht with ht | ht
      · exact h.failed t ht
      · cases ht
    · intro hdenied
      rcases trySet_eq_some hdenied with hdenied | hdenied
      · exact h.denied hdenied
      · cases hdenied
  | setShortAuthenticationString sas =>
    exact ⟨h.submitted, hset hlater, h.terminations, h.termination, h.failed, h.denied⟩
  | rejectionOrRemoteHangup failureInfo relatedInfo =>
    refine ⟨h.submitted, hset (allowed_terminate hQ ?_), h.terminations, h.termination, h.failed,
      h.denied⟩
    split
    · exact hfirst.2
    · exact hfirst.1
  | setTermination t =>
    refine ⟨h.submitted, hset ?_, ?_, ?_, h.failed, h.denied⟩
    · show ∀ next ∈ if s.termination.isNone then later else [], CallStep.Allowed Q J next
      split
      · exact hlater
      · exact fun next hnext => absurd hnext List.not_mem_nil
    · intro t' ht'
      rcases List.mem_append.mp ht' with ht' | ht'
      · exact h.terminations t' ht'
      · rwa [List.mem_singleton.mp ht']
    · intro t' ht'
      rcases trySet_eq_some ht' with ht' | rfl
      · exact h.termination t' ht'
      · exact hfirst
  | failAcceptedOrDenied t =>
    refine ⟨h.submitted, hset hlater, h.terminations, h.termination, ?_, ?_⟩
    · intro t' ht'
      rcases trySet_eq_some ht' with ht' | ht'
      · exact h.failed t' ht'
      · rwa [← Except.error.inj ht']
    · intro hdenied
      rcases trySet_eq_some hdenied with hdenied | hdenied
      · exact h.denied hdenied
      · cases hdenied
  | cancelCanceller =>
    exact ⟨h.submitted, hset hlater, h.terminations, h.termination, h.failed, h.denied⟩
  | failShortAuthenticationString t =>
    exact ⟨h.submitted, hset hlater, h.terminations, h.termination, h.failed, h.denied⟩
  | sealProgress =>
    have hseal : Keeps (C := C) Q .sealValue := trivial
    exact ⟨h.submit hseal, hset hlater, h.terminations, h.termination, h.failed, h.denied⟩

/-- A call that is allowed may begin, and everything goes on. -/
theorem Allowed.step (hQ : Q .terminated) (h : Allowed Q J s) {e : Event I C T}
    (hcall : ∀ method, e = .call method → Method.Allowed Q J method)
    (hstep : s.step e = some s') : Allowed Q J s' := by
  rcases step_cases hstep with ⟨method, rfl, rfl⟩ | ⟨i, first, later, -, hi, rfl⟩ |
    ⟨e', progress, rfl, hkeeps, hprogress, rfl⟩
  · refine ⟨h.submitted, ?_, h.terminations, h.termination, h.failed, h.denied⟩
    intro p hp
    rcases List.mem_append.mp hp with hp | hp
    · exact h.inProgress p hp
    · rw [List.mem_singleton.mp hp]
      exact (hcall method rfl).steps hQ
  · exact h.execute hQ hi
  · refine ⟨?_, h.inProgress, h.terminations, h.termination, h.failed, h.denied⟩
    dsimp only
    rcases ObservableValue.submitted_step hprogress with heq | ⟨action, hsubmits, heq⟩ <;> rw [heq]
    · exact h.submitted
    · intro a ha
      rcases List.mem_append.mp ha with ha | ha
      · exact h.submitted a ha
      · rw [List.mem_singleton.mp ha]
        exact keeps_of_submits hkeeps hsubmits

end CallController
end SignalIOS.Phone
