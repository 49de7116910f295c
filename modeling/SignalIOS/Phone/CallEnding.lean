import SignalIOS.Phone.CallProgressOrder

/-! The end of a call: what the call that terminates it has to do, and what has been done once all
calls of methods have returned. -/
namespace SignalIOS.Phone
open SignalIOS.Lib

namespace CallController
variable {I C T : Type*}

/-- What a call that has set the termination does behind the last advance. -/
def duties (t : CallTermination I) : List (CallStep I) :=
  [.failAcceptedOrDenied t, .cancelCanceller, .failShortAuthenticationString t, .sealProgress]

def Done (s : CallController I C T) : CallStep I → Prop
  | .failAcceptedOrDenied _ => s.interactiveCallAcceptedOrDenied.isSome
  | .cancelCanceller => s.canceller ∈ s.progress.cancelledTokens
  | .failShortAuthenticationString _ => s.shortAuthenticationString.isSome
  | .sealProgress => .sealValue ∈ s.progress.submitted
  | _ => True

/-- Each duty has been done, or the call that terminates has it left to do. -/
def Dutiful (s : CallController I C T) : Prop :=
  ∀ t, s.termination = some t → ∀ duty ∈ duties t,
    s.Done duty ∨ ∃ p ∈ s.inProgress, ¬ Fresh p ∧ duty ∈ p

/-- A call that has a termination to set, which may turn out to be a later one. -/
def IsEnding : List (CallStep I) → Prop
  | .denyAndTerminate :: _ | .rejectionOrRemoteHangup _ _ :: _ | .setTermination _ :: _ => True
  | _ => False

/-- A termination has been set, or will be before all calls have returned. -/
def EndingBegun (s : CallController I C T) : Prop :=
  s.terminations ≠ [] ∨ ∃ p ∈ s.inProgress, IsEnding p

/-- The methods that terminate the call. -/
def Method.Terminates : Method I → Prop
  | .hangupOrDenyCall | .terminateWithRejectionOrRemoteHangup _ _ | .terminateWithReason _
  | .backgroundTimeExpired => True
  | _ => False

theorem Method.Terminates.isEnding {method : Method I} (h : method.Terminates) :
    IsEnding method.steps := by
  cases method with
  | advanceCallProgressTo type => exact h.elim
  | acceptCall => exact h.elim
  | advanceCallProgressToConversingWithShortAuthenticationString sas => exact h.elim
  | _ => trivial

/-- What is to be true of a call at its end. -/
structure Over (s : CallController I C T) : Prop where
  termination : s.termination.isSome
  firstReason : s.termination = s.terminations.head?
  acceptedOrDenied : s.interactiveCallAcceptedOrDenied.isSome
  cancelled : s.canceller ∈ s.progress.cancelledTokens
  shortAuthenticationString : s.shortAuthenticationString.isSome
  /-- Once no loop runs. -/
  progress : s.progress.running = [] →
    s.progress.currentValue.type = .terminated ∧ s.progress.sealed = true

theorem mem_set_of_ne {α : Type*} {l : List α} {i : ℕ} {a b c : α} (hi : l[i]? = some a)
    (hb : b ∈ l) (hne : b ≠ a) : b ∈ l.set i c := by
  obtain ⟨j, hj⟩ := List.mem_iff_getElem?.mp hb
  have hij : i ≠ j := by
    rintro rfl
    exact hne (Option.some.inj (hj.symm.trans hi))
  exact List.mem_iff_getElem?.mpr ⟨j, by rwa [List.getElem?_set_ne hij]⟩

theorem mem_set_self {α : Type*} {l : List α} {i : ℕ} {a b : α} (hi : l[i]? = some a) :
    b ∈ l.set i b := by
  obtain ⟨hlt, -⟩ := List.getElem?_eq_some_iff.mp hi
  exact List.mem_iff_getElem?.mpr ⟨i, List.getElem?_set_self hlt⟩

theorem inProgress_execute [DecidableEq T] (s : CallController I C T) (later : List (CallStep I))
    (first : CallStep I) : (s.execute later first).1.inProgress = s.inProgress := by
  cases first <;> rfl

theorem isSome_trySet {α : Type*} (result : α) (future : Option α) :
    (trySet result future).isSome := by
  cases future <;> rfl

theorem trySet_eq_some {α : Type*} {result value : α} {future : Option α}
    (h : trySet result future = some value) : future = some value ∨ result = value := by
  cases future with
  | none => exact .inr (Option.some.inj h)
  | some first => exact .inl h

theorem Terminating.notFresh_tail {t : CallTermination I} {terminated : Bool} {first : CallStep I}
    {later : List (CallStep I)} (h : Terminating t terminated (first :: later)) :
    later = [] ∨ ¬ Fresh later := by
  cases h with
  | sealProgress => exact .inl rfl
  | _ =>
    right
    intro hfresh
    cases hfresh

theorem notFresh_tail_terminate (t : CallTermination I) : ¬ Fresh (terminate t).tail := by
  intro h
  cases h

theorem duties_subset_tail (t : CallTermination I) : duties t ⊆ (terminate t).tail :=
  List.subset_cons_self _ _

/-- At most one call is not fresh. -/
theorem Calls.eq_of_notFresh {termination : Option (CallTermination I)} {terminated : Bool}
    {inProgress : List (List (CallStep I))} (h : Calls termination terminated inProgress)
    {p q : List (CallStep I)} (hp : p ∈ inProgress) (hq : q ∈ inProgress) (hpnot : ¬ Fresh p)
    (hqnot : ¬ Fresh q) : p = q := by
  cases h with
  | running h => exact absurd (h p hp) hpnot
  | terminating k rest hk _ h =>
    have heq {r : List (CallStep I)} (hr : r ∈ inProgress) (hnot : ¬ Fresh r) : r = rest := by
      obtain ⟨j, hj⟩ := List.mem_iff_getElem?.mp hr
      by_cases hjk : j = k
      · subst hjk
        exact Option.some.inj (hj.symm.trans hk)
      · exact absurd (h j r hjk hj) hnot
    exact (heq hp hpnot).trans (heq hq hqnot).symm

variable [DecidableEq C] [DecidableEq T] {s s' : CallController I C T} {terminated : Bool}

/-- What an event can do. -/
theorem step_cases {e : Event I C T} (h : s.step e = some s') :
    (∃ method, e = .call method ∧ s' = { s with inProgress := s.inProgress ++ [method.steps] }) ∨
    (∃ i first later, e = .execute i ∧ s.inProgress[i]? = some (first :: later) ∧
      s' = { (s.execute later first).1 with
        inProgress := s.inProgress.set i (s.execute later first).2 }) ∨
    ∃ e' progress, e = .progress e' ∧ changesValue e' = false ∧
      s.progress.step e' = some progress ∧ s' = { s with progress } := by
  cases e with
  | call method => exact .inl ⟨method, rfl, (Option.some.inj h).symm⟩
  | execute i =>
    simp only [step] at h
    split at h
    case h_2 => cases h
    case h_1 first later hi =>
      refine .inr (.inl ⟨i, first, later, rfl, hi, ?_⟩)
      rw [inProgress_execute] at h
      exact (Option.some.inj h).symm
  | progress e' =>
    simp only [step] at h
    split at h
    case isTrue => cases h
    case isFalse hkeeps =>
      obtain ⟨progress, hprogress, rfl⟩ := Option.map_eq_some_iff.mp h
      exact .inr (.inr ⟨e', progress, rfl, Bool.eq_false_of_not_eq_true hkeeps, hprogress, rfl⟩)

omit [DecidableEq C] in
/-- What has been done stays done while a step is executed. -/
theorem Done.execute {duty : CallStep I} (h : s.Done duty) (later : List (CallStep I))
    (first : CallStep I) (inProgress : List (List (CallStep I))) :
    Done { (s.execute later first).1 with inProgress } duty := by
  have hsubmitted : s.progress.submitted ⊆ (s.execute later first).1.progress.submitted := by
    cases first with
    | unrestrictedAdvanceCallProgressTo type =>
      show _ ⊆ (s.progress.queueRun _).submitted
      rw [ObservableValue.submitted_queueRun]
      exact List.subset_append_left _ _
    | sealProgress =>
      show _ ⊆ (s.progress.queueRun _).submitted
      rw [ObservableValue.submitted_queueRun]
      exact List.subset_append_left _ _
    | _ => exact List.Subset.refl _
  have hcancelled : s.progress.cancelledTokens ⊆
      (s.execute later first).1.progress.cancelledTokens := by
    cases first with
    | unrestrictedAdvanceCallProgressTo type =>
      show _ ⊆ (s.progress.queueRun _).cancelledTokens
      rw [ObservableValue.cancelledTokens_queueRun]
    | sealProgress =>
      show _ ⊆ (s.progress.queueRun _).cancelledTokens
      rw [ObservableValue.cancelledTokens_queueRun]
    | cancelCanceller => exact Finset.subset_insert _ _
    | _ => exact Finset.Subset.refl _
  have hcanceller : (s.execute later first).1.canceller = s.canceller := by
    cases first <;> rfl
  cases duty with
  | failAcceptedOrDenied t =>
    cases first with
    | denyAndTerminate => exact isSome_trySet _ _
    | acceptCall => exact isSome_trySet _ _
    | failAcceptedOrDenied t' => exact isSome_trySet _ _
    | _ => exact h
  | failShortAuthenticationString t =>
    cases first with
    | setShortAuthenticationString sas => exact isSome_trySet _ _
    | failShortAuthenticationString t' => exact isSome_trySet _ _
    | _ => exact h
  | cancelCanceller =>
    show (s.execute later first).1.canceller ∈ _
    rw [hcanceller]
    exact hcancelled h
  | sealProgress => exact hsubmitted h
  | _ => trivial

omit [DecidableEq C] in
/-- The call that terminates does what its next step says. -/
theorem done_execute {t : CallTermination I} {first : CallStep I} {later : List (CallStep I)}
    (h : Terminating t terminated (first :: later)) (inProgress : List (List (CallStep I))) :
    Done { (s.execute later first).1 with inProgress } first := by
  cases h with
  | advance => trivial
  | failAcceptedOrDenied => exact isSome_trySet _ _
  | cancelCanceller => exact Finset.mem_insert_self _ _
  | failShortAuthenticationString => exact isSome_trySet _ _
  | sealProgress =>
    show _ ∈ (s.progress.queueRun _).submitted
    rw [ObservableValue.submitted_queueRun]
    exact List.mem_append_right _ (List.mem_singleton_self _)

omit [DecidableEq C] in
/-- Only the first termination is set. -/
theorem termination_execute (later : List (CallStep I)) (first : CallStep I) :
    (s.execute later first).1.termination = s.termination ∨
      s.termination = none ∧ ∃ t, first = .setTermination t ∧
        (s.execute later first).1.termination = some t ∧ (s.execute later first).2 = later := by
  cases first with
  | setTermination t =>
    cases htermination : s.termination with
    | none =>
      refine .inr ⟨rfl, t, rfl, ?_, ?_⟩ <;> unfold CallController.execute <;> rw [htermination] <;>
        rfl
    | some t' =>
      left
      unfold CallController.execute
      rw [htermination]
      rfl
  | _ => exact .inl rfl

theorem Done.step {duty : CallStep I} (h : s.Done duty) {e : Event I C T}
    (hstep : s.step e = some s') : s'.Done duty := by
  rcases step_cases hstep with ⟨method, -, rfl⟩ | ⟨i, first, later, -, -, rfl⟩ |
    ⟨e', progress, -, -, hprogress, rfl⟩
  · cases duty <;> exact h
  · exact h.execute later first _
  · cases duty with
    | cancelCanceller => exact ObservableValue.cancelledTokens_step hprogress h
    | sealProgress => exact ObservableValue.submitted_subset hprogress h
    | _ => exact h

/-- The duties go over to the call that sets the termination, and it does one after the other. -/
theorem Dutiful.step (h : Dutiful s) (hsteady : Steady terminated s) {e : Event I C T}
    (hstep : s.step e = some s') : Dutiful s' := by
  have hdone {duty : CallStep I} (hduty : s.Done duty) : s'.Done duty := hduty.step hstep
  rcases step_cases hstep with ⟨method, -, rfl⟩ | ⟨i, first, later, -, hi, rfl⟩ |
    ⟨e', progress, -, -, -, rfl⟩
  case inl =>
    intro t ht duty hduty
    rcases h t ht duty hduty with hd | ⟨p, hp, hnot, hmem⟩
    · exact .inl (hdone hd)
    · exact .inr ⟨p, List.mem_append_left _ hp, hnot, hmem⟩
  case inr.inr =>
    intro t ht duty hduty
    rcases h t ht duty hduty with hd | hpending
    · exact .inl (hdone hd)
    · exact .inr hpending
  case inr.inl =>
    intro t ht duty hduty
    dsimp only at ht ⊢
    rcases termination_execute (s := s) later first with hsame | ⟨hnone, t', rfl, hset, hlater⟩
    · rw [hsame] at ht
      rcases h t ht duty hduty with hd | ⟨p, hp, hnot, hmem⟩
      · exact .inl (hdone hd)
      by_cases hfresh : Fresh (first :: later)
      · have hne : p ≠ first :: later := by
          rintro rfl
          exact hnot hfresh
        exact .inr ⟨p, mem_set_of_ne hi hp hne, hnot, hmem⟩
      · obtain rfl : p = first :: later :=
          hsteady.calls.eq_of_notFresh hp (List.mem_of_getElem? hi) hnot hfresh
        obtain ⟨t'', -, hterminating⟩ := hsteady.calls.terminating_of_notFresh hi hfresh
        rcases List.mem_cons.mp hmem with rfl | hmem
        · exact .inl (done_execute (s := s) hterminating _)
        · have hsecond : (s.execute later first).2 = later := by
            cases hterminating <;> rfl
          rcases hterminating.notFresh_tail with rfl | hnotLater
          · exact absurd hmem List.not_mem_nil
          · refine .inr ⟨later, ?_, hnotLater, hmem⟩
            rw [hsecond]
            exact mem_set_self hi
    · rw [hset] at ht
      obtain rfl := Option.some.inj ht
      have htail : later = (terminate t').tail := by
        have hcalls := hsteady.calls
        rw [hnone] at hcalls
        cases hcalls with
        | running hfresh =>
          have hfirst := hfresh _ (List.mem_of_getElem? hi)
          cases hfirst
          rfl
      refine .inr ⟨later, ?_, ?_, ?_⟩
      · rw [hlater]
        exact mem_set_self hi
      · rw [htail]
        exact notFresh_tail_terminate t'
      · rw [htail]
        exact duties_subset_tail t' hduty

/-- A call that is to set a termination goes on to it. -/
theorem EndingBegun.step (h : EndingBegun s) {e : Event I C T} (hstep : s.step e = some s') :
    EndingBegun s' := by
  rcases step_cases hstep with ⟨method, -, rfl⟩ | ⟨i, first, later, -, hi, rfl⟩ |
    ⟨e', progress, -, -, -, rfl⟩
  case inl =>
    rcases h with hset | ⟨p, hp, hending⟩
    · exact .inl hset
    · exact .inr ⟨p, List.mem_append_left _ hp, hending⟩
  case inr.inr => exact h
  case inr.inl =>
    have hterminations : s.terminations <+: (s.execute later first).1.terminations := by
      cases first with
      | setTermination t => exact List.prefix_append _ _
      | _ => exact List.prefix_refl _
    rcases h with hset | ⟨p, hp, hending⟩
    · left
      exact fun hnil => hset (List.prefix_nil.mp (hnil ▸ hterminations))
    by_cases heq : p = first :: later
    · subst heq
      cases first with
      | setTermination t => exact .inl (List.append_ne_nil_of_right_ne_nil _ (List.cons_ne_nil _ _))
      | denyAndTerminate => exact .inr ⟨_, mem_set_self hi, trivial⟩
      | rejectionOrRemoteHangup failureInfo relatedInfo => exact .inr ⟨_, mem_set_self hi, trivial⟩
      | _ => exact hending.elim
    · exact .inr ⟨p, mem_set_of_ne hi hp heq, hending⟩

omit [DecidableEq T] in
theorem Disciplined.sealed {actions : List (QueuedAction CallProgress C)}
    (h : Disciplined terminated actions) (hseal : .sealValue ∈ actions) :
    (performed actions).sealed = true := by
  induction h with
  | nil => cases hseal
  | sealValue h ih =>
    rw [performed, SequentialValue.performAll_append]
    rfl
  | watch callback h ih =>
    rw [performed, SequentialValue.performAll_append, SequentialValue.performAll_singleton,
      SequentialValue.sealed_perform (by simp)]
    exact ih (by simpa using hseal)
  | unwatch callback h ih =>
    rw [performed, SequentialValue.performAll_append, SequentialValue.performAll_singleton,
      SequentialValue.sealed_perform (by simp)]
    exact ih (by simpa using hseal)
  | advance address htype h ih =>
    rw [performed, SequentialValue.performAll_append, SequentialValue.performAll_singleton,
      SequentialValue.sealed_perform (by simp)]
    exact ih (by simpa using hseal)
  | terminate address h ih =>
    rw [performed, SequentialValue.performAll_append, SequentialValue.performAll_singleton,
      SequentialValue.sealed_perform (by simp)]
    exact ih (by simpa using hseal)

omit [DecidableEq T] in
/-- Once all calls have returned, and one of them was to terminate, nothing is left to be done. -/
theorem over_of_returned (hsteady : Steady terminated s) (hdutiful : Dutiful s)
    (hserial : ObservableValue.Serial ⟨0, .connecting⟩ s.progress) (hbegun : EndingBegun s)
    (hreturned : ∀ p ∈ s.inProgress, p = []) : Over s := by
  have hset : s.terminations ≠ [] := by
    rcases hbegun with hset | ⟨p, hp, hending⟩
    · exact hset
    · rw [hreturned p hp] at hending
      exact hending.elim
  obtain ⟨t, ht⟩ : ∃ t, s.termination = some t := by
    obtain ⟨t, later, hcons⟩ := List.exists_cons_of_ne_nil hset
    exact ⟨t, by rw [hsteady.firstReason, hcons, List.head?_cons]⟩
  have hdone (duty : CallStep I) (hduty : duty ∈ duties t) : s.Done duty := by
    rcases hdutiful t ht duty hduty with hd | ⟨p, hp, -, hmem⟩
    · exact hd
    · rw [hreturned p hp] at hmem
      cases hmem
  have hterminated : terminated = true := by
    have hcalls := hsteady.calls
    rw [ht] at hcalls
    cases hcalls with
    | terminating i later hi hlater _ =>
      obtain rfl := hreturned later (List.mem_of_getElem? hi)
      cases hlater
      rfl
  subst hterminated
  constructor
  case termination => rw [ht, Option.isSome_some]
  case firstReason => exact hsteady.firstReason
  case acceptedOrDenied => exact hdone (.failAcceptedOrDenied t) (by simp [duties])
  case cancelled => exact hdone .cancelCanceller (by simp [duties])
  case shortAuthenticationString =>
    exact hdone (.failShortAuthenticationString t) (by simp [duties])
  case progress =>
    intro hidle
    have hseal : .sealValue ∈ s.progress.submitted := hdone .sealProgress (by simp [duties])
    have hperformed : s.progress.sequential = performed s.progress.submitted := by
      rcases hserial.running with ⟨-, -, hqueued, hsequential⟩ | ⟨r, hrunning, -⟩
      · have hsubmitted := hserial.submitted
        rw [hidle, hqueued, List.map_nil, List.append_nil, List.append_nil] at hsubmitted
        rw [hsequential, hsubmitted]
      · rw [hidle] at hrunning
        cases hrunning
    constructor
    · have htype := hsteady.disciplined.orderly.isTerminated.mp rfl
      rw [← hperformed] at htype
      exact htype
    · have hsealed := hsteady.disciplined.sealed hseal
      rw [← hperformed] at hsealed
      exact hsealed

/-- Whoever waits for the user to accept the call fails with the termination only. -/
def FailsWithTermination (s : CallController I C T) : Prop :=
  ∀ t, s.interactiveCallAcceptedOrDenied = some (.error t) → s.termination = some t

theorem FailsWithTermination.step (h : FailsWithTermination s) (hsteady : Steady terminated s)
    {e : Event I C T} (hstep : s.step e = some s') : FailsWithTermination s' := by
  rcases step_cases hstep with ⟨method, -, rfl⟩ | ⟨i, first, later, -, hi, rfl⟩ |
    ⟨e', progress, -, -, -, rfl⟩
  case inl => exact h
  case inr.inr => exact h
  case inr.inl =>
    intro t ht
    dsimp only at ht ⊢
    -- a failure from before stands, and so does the termination
    have hkept (hbefore : s.interactiveCallAcceptedOrDenied = some (.error t)) :
        (s.execute later first).1.termination = some t := by
      have htermination := h t hbefore
      rcases termination_execute (s := s) later first with hsame | ⟨hnone, -⟩
      · exact hsame.trans htermination
      · cases hnone.symm.trans htermination
    cases first with
    | denyAndTerminate =>
      rcases trySet_eq_some ht with hbefore | hdenied
      · exact hkept hbefore
      · cases hdenied
    | acceptCall =>
      rcases trySet_eq_some ht with hbefore | haccepted
      · exact hkept hbefore
      · cases haccepted
    | failAcceptedOrDenied t' =>
      rcases trySet_eq_some ht with hbefore | hfailed
      · exact hkept hbefore
      · obtain rfl : t' = t := Except.error.inj hfailed
        have hnot : ¬ Fresh (.failAcceptedOrDenied t' :: later) := by
          intro hfresh
          cases hfresh
        obtain ⟨t'', htermination, hterminating⟩ := hsteady.calls.terminating_of_notFresh hi hnot
        cases hterminating
        exact htermination
    | _ => exact hkept ht

theorem failsWithTermination_of_run {canceller : T}
    {tr : History (CallController I C T) (Event I C T)} (h : (machine canceller).Run tr) :
    FailsWithTermination ((machine canceller).last tr) := by
  induction tr with
  | nil =>
    intro t ht
    cases ht
  | cons p tr ih =>
    obtain ⟨terminated, hsteady⟩ := steady_of_run h.1
    exact (ih h.1).step hsteady h.2

theorem dutiful_of_run {canceller : T} {tr : History (CallController I C T) (Event I C T)}
    (h : (machine canceller).Run tr) : Dutiful ((machine canceller).last tr) := by
  induction tr with
  | nil =>
    intro t ht
    cases ht
  | cons p tr ih =>
    obtain ⟨terminated, hsteady⟩ := steady_of_run h.1
    exact (ih h.1).step hsteady h.2

/-- Whatever threads, callbacks and other calls come in between: once a call of a method that
terminates has been made and all calls have returned, the first reason stands, both futures have an
outcome, the token is cancelled, and the progress, once its loop is through, is sealed as
terminated. -/
theorem over_of_run {canceller : T} {tr : History (CallController I C T) (Event I C T)}
    (h : (machine canceller).Run tr) {method : Method I}
    (hcalled : Event.call method ∈ tr.map Prod.fst) (hterminates : method.Terminates)
    (hreturned : ∀ p ∈ ((machine canceller).last tr).inProgress, p = []) :
    Over ((machine canceller).last tr) := by
  have hbegun : EndingBegun ((machine canceller).last tr) := by
    clear hreturned
    induction tr with
    | nil => cases hcalled
    | cons p tr ih =>
      obtain ⟨e, s⟩ := p
      rcases List.mem_cons.mp hcalled with rfl | hbefore
      · obtain rfl := Option.some.inj h.2
        exact .inr ⟨method.steps, List.mem_append_right _ (List.mem_singleton_self _),
          hterminates.isEnding⟩
      · exact (ih h.1 hbefore).step h.2
  obtain ⟨terminated, hsteady⟩ := steady_of_run h
  exact over_of_returned hsteady (dutiful_of_run h) (serial_of_run h) hbegun hreturned

/-- The other side hangs up between two steps of a local hangup, which comes too late then. -/
def competingHangups : List (Event ℕ ℕ ℕ) :=
  [.progress (.watchLatestValue 1 none), .call .hangupOrDenyCall,
    .call (.terminateWithReason ⟨.hangupRemote, none, none⟩), .execute 0, .execute 1, .execute 0,
    .execute 1, .progress (.runAction 0), .execute 1, .execute 1, .execute 1, .execute 1,
    .progress (.callbackReturns 0), .progress (.tryDequeue 0), .progress (.runAction 0),
    .progress (.adjustmentReturns 0), .progress (.callNext 0 1), .progress (.callbackReturns 0),
    .progress (.tryDequeue 0), .progress (.runAction 0), .progress (.tryDequeue 0)]

theorem over_competingHangups : ∃ tr, (machine 0).exec competingHangups = some tr ∧
    ((machine 0).last tr).termination = some ⟨.hangupRemote, none, none⟩ ∧
    ((machine 0).last tr).interactiveCallAcceptedOrDenied = some (.ok false) ∧
    Over ((machine 0).last tr) := by
  have hexec : ((machine 0).exec competingHangups).map (fun tr =>
      (((machine 0).last tr).inProgress, ((machine 0).last tr).termination)) =
      some ([[], []], some ⟨.hangupRemote, none, none⟩) := by decide
  have hdenied : ((machine 0).exec competingHangups).map (fun tr =>
      ((machine 0).last tr).interactiveCallAcceptedOrDenied.map Except.toOption) =
      some (some (some false)) := by decide
  obtain ⟨tr, htr, hresult⟩ := Option.map_eq_some_iff.mp hexec
  obtain ⟨hinProgress, htermination⟩ := Prod.mk.inj hresult
  have haccepted : ((machine 0).last tr).interactiveCallAcceptedOrDenied = some (.ok false) := by
    rw [htr, Option.map_some, Option.some.injEq] at hdenied
    obtain ⟨outcome, houtcome, hfalse⟩ := Option.map_eq_some_iff.mp hdenied
    cases outcome with
    | ok accepted =>
      obtain rfl := Option.some.inj hfalse
      exact houtcome
    | error t => cases hfalse
  have hcalled : Event.call Method.hangupOrDenyCall ∈ tr.map Prod.fst := by
    rw [Machine.map_fst_of_exec htr, List.mem_reverse]
    exact .tail _ (.head _)
  have hreturned : ∀ p ∈ ((machine 0).last tr).inProgress, p = [] := by
    rw [hinProgress]
    simp
  exact ⟨tr, htr, htermination, haccepted,
    over_of_run (Machine.run_of_exec htr) hcalled trivial hreturned⟩

end CallController
end SignalIOS.Phone
