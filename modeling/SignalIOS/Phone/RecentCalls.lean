import SignalIOS.Call.Basic
import SignalIOS.Phone.CallController

/-! The call log of RedPhone: what is recorded of a call that is over. -/
namespace SignalIOS.Phone
open SignalIOS.Lib SignalIOS.Call

/-- A request of the signaling server, by what it is for the session of the call. -/
structure ServerRequest (I : Type*) where
  request : I
  isKeepAlive : Bool := false
  isHangupForSession : Bool := false
  isRingingForSession : Bool := false
  isBusyForSession : Bool := false

inductive ServerResponse
  | ok200
  | internalServerError500
  | notImplemented501
  deriving DecidableEq, Repr

/-- The failures that a request is answered with. -/
structure RequestFailures (I : Type*) where
  unrecognizedRequestFailure : I
  ignoredPacketFailure : I

/-- What the responder of a call makes of a request: the method of the controller that it calls,
and its answer. -/
def ServerRequest.answeredByResponder {I : Type*} (failures : RequestFailures I)
    (r : ServerRequest I) : Option (CallController.Method I) × ServerResponse :=
  if r.isKeepAlive then (none, .ok200)
  else if r.isHangupForSession then
    (some (.terminateWithReason ⟨.hangupRemote, none, some r.request⟩), .ok200)
  else
    (some (.terminateWithReason ⟨.badInteractionWithServer,
      some failures.unrecognizedRequestFailure, some r.request⟩), .notImplemented501)

/-- What the initiator makes of it. Without a session it cannot tell. -/
def ServerRequest.answeredByInitiator {I : Type*} (failures : RequestFailures I)
    (hasSession : Bool) (r : ServerRequest I) :
    Option (CallController.Method I) × ServerResponse :=
  if r.isKeepAlive then (none, .ok200)
  else if !hasSession then
    (some (.terminateWithReason ⟨.badInteractionWithServer, some failures.ignoredPacketFailure,
      some r.request⟩), .internalServerError500)
  else if r.isHangupForSession then
    (some (.terminateWithRejectionOrRemoteHangup none (some r.request)), .ok200)
  else if r.isRingingForSession then (some (.advanceCallProgressTo .ringing), .ok200)
  else if r.isBusyForSession then
    (some (.terminateWithReason ⟨.responderIsBusy, none, some r.request⟩), .ok200)
  else
    (some (.terminateWithReason ⟨.badInteractionWithServer,
      some failures.unrecognizedRequestFailure, some r.request⟩), .notImplemented501)

/-- The reasons that failures and the manager of the calls give. The others are those of the user,
of the background time and of the requests of the server. -/
def CallTerminationType.isGivenByOthers : CallTerminationType → Bool
  | hangupLocal | hangupRemote | rejectedRemote | responderIsBusy | backgroundTimeExpired => false
  | _ => true

structure RecentCall where
  contactRecordID : ℤ
  phoneNumber : String
  callType : RPRecentCallType
  userNotified : Bool
  deriving DecidableEq, Repr

def RecentCall.recentCallWithContactID (contactID : ℤ) (number : String)
    (type : RPRecentCallType) : RecentCall where
  contactRecordID := contactID
  phoneNumber := number
  callType := type
  userNotified := type ≠ .missed

namespace RecentCallManager

def isMissedCall {I : Type*} (termination : CallTermination I) : Bool :=
  termination.type = .hangupRemote

/-- The type of the record that the block of `addCall` makes. -/
def callType {I : Type*} (isOutgoingCall : Bool) (termination : CallTermination I) :
    RPRecentCallType :=
  if isOutgoingCall then .outgoing else if isMissedCall termination then .missed else .incoming

end RecentCallManager

/-- A call, with the record of it. -/
structure LoggedCall (I C T : Type*) where
  controller : CallController I C T
  initiatedLocally : Bool
  remoteNumber : String
  /-- The record id of the contact, if one is specified. -/
  potentiallySpecifiedContact : Option ℤ
  /-- The manager of recent calls has seen the call. -/
  added : Bool := false
  /-- The block that it has left with `finallyDo` is still to run. -/
  blockPending : Bool := false
  recentCalls : List RecentCall := []
  /-- The user had accepted or denied the call when it was terminated. -/
  answeredBefore : Bool := false

namespace LoggedCall
variable {I C T : Type*}

def isAnswered (controller : CallController I C T) : Bool :=
  match controller.interactiveCallAcceptedOrDenied with
  | some (.ok _) => true
  | _ => false

/-- Someone without a contact has the record id of `nil`. -/
def recentCall (s : LoggedCall I C T) (latestContactForPhoneNumber : String → Option ℤ)
    (termination : CallTermination I) : RecentCall :=
  let contact := s.potentiallySpecifiedContact.or (latestContactForPhoneNumber s.remoteNumber)
  .recentCallWithContactID (contact.getD 0) s.remoteNumber
    (RecentCallManager.callType s.initiatedLocally termination)

inductive Event (I C T : Type*)
  /-- The user, the handshake, failures and watchers. -/
  | controller (e : CallController.Event I C T)
  | serverRequest (failures : RequestFailures I) (hasSession : Bool) (request : ServerRequest I)
  | addCall
  /-- The block runs, once the call is terminated. -/
  | finallyDo (latestContactForPhoneNumber : String → Option ℤ)

section StepFunction
variable [DecidableEq I] [DecidableEq C] [DecidableEq T]

/-- Failures give their own reasons, or that of the termination which they come from. Requests of
the server come by `serverRequest`. -/
def canHappen (s : LoggedCall I C T) : CallController.Event I C T → Bool
  | .call (.terminateWithReason t) => t.type.isGivenByOthers || s.controller.termination = some t
  | .call (.terminateWithRejectionOrRemoteHangup _ _) => false
  | _ => true

def controllerStep (s : LoggedCall I C T) (e : CallController.Event I C T) :
    Option (LoggedCall I C T) :=
  (s.controller.step e).map fun controller =>
    { s with
      controller
      answeredBefore :=
        if s.controller.termination.isNone then isAnswered controller else s.answeredBefore }

def respondToServerRequest (s : LoggedCall I C T) (failures : RequestFailures I)
    (hasSession : Bool) (request : ServerRequest I) :
    Option (CallController.Method I) × ServerResponse :=
  if s.initiatedLocally then
    ServerRequest.answeredByInitiator failures hasSession request
  else ServerRequest.answeredByResponder failures request

def step (s : LoggedCall I C T) : Event I C T → Option (LoggedCall I C T)
  | .controller e => if s.canHappen e then s.controllerStep e else none
  | .serverRequest failures hasSession request =>
    match (s.respondToServerRequest failures hasSession request).1 with
    | some method => s.controllerStep (.call method)
    | none => some s
  | .addCall => if s.added then none else some { s with added := true, blockPending := true }
  | .finallyDo latestContactForPhoneNumber =>
    if s.blockPending then
      s.controller.termination.map fun termination =>
        { s with
          blockPending := false
          recentCalls := s.recentCalls ++ [s.recentCall latestContactForPhoneNumber termination] }
    else none

def machine (canceller : T) (initiatedLocally : Bool) (remoteNumber : String)
    (contact : Option ℤ) : Machine (LoggedCall I C T) (Event I C T) where
  init :=
    { controller := (CallController.machine canceller).init
      initiatedLocally
      remoteNumber
      potentiallySpecifiedContact := contact }
  step := step

end StepFunction

/-- The signaling server said that the other side hung up, or that the call had ended before we made
contact. -/
def endedByRemote (termination : CallTermination I) : Prop :=
  termination.type = .hangupRemote ∨ termination.type = .rejectedRemote ∨
    termination.type = .staleSession

instance (termination : CallTermination I) : Decidable (endedByRemote termination) :=
  inferInstanceAs (Decidable (_ ∨ _ ∨ _))

/-- What a call is promised to be recorded as. -/
def promisedCallType (initiatedLocally answeredBefore : Bool) (termination : CallTermination I) :
    RPRecentCallType :=
  if initiatedLocally then .outgoing
  else if endedByRemote termination ∧ answeredBefore = false then .missed else .incoming

/-- There is one record, from the time the block has run, and it is of the right type. -/
structure RecordedRightly (s : LoggedCall I C T) : Prop where
  unterminated : s.controller.termination = none → s.recentCalls = []
  once : s.recentCalls.length ≤ 1
  recorded : s.added = true → s.blockPending = false → s.recentCalls.length = 1
  callType : ∀ r ∈ s.recentCalls, ∀ t ∈ s.controller.termination,
    r.callType = promisedCallType s.initiatedLocally s.answeredBefore t

/-- The reasons by which the other side ends a call go together with what the user has done: one
of them is taken to say that the call was missed, and the other one that it was not. -/
def ReasonFits (termination : CallTermination I) (answered : Bool) : Prop :=
  (termination.type = .hangupRemote → answered = false) ∧
    (termination.type = .staleSession → answered = true)

instance (termination : CallTermination I) (answered : Bool) :
    Decidable (ReasonFits termination answered) :=
  inferInstanceAs (Decidable ((_ → _) ∧ (_ → _)))

/-- No incoming call is recorded that the other side ended after the user had answered it, or that
had ended before we made contact. -/
def ReasonFitsAnswer (s : LoggedCall I C T) : Event I C T → Prop
  | .finallyDo _ => ∀ t ∈ s.controller.termination,
      s.initiatedLocally = true ∨ ReasonFits t s.answeredBefore
  | _ => True

instance (s : LoggedCall I C T) : ∀ e, Decidable (ReasonFitsAnswer s e)
  | .finallyDo _ =>
    inferInstanceAs (Decidable (∀ t ∈ s.controller.termination, _ ∨ ReasonFits t _))
  | .controller _ => .isTrue trivial
  | .serverRequest _ _ _ => .isTrue trivial
  | .addCall => .isTrue trivial

/-- What a call of the controller may be about to do while the call is incoming. -/
def OfIncomingCall : CallStep I → Prop
  | .rejectionOrRemoteHangup _ _ => False
  | .setTermination t => t.type ≠ .rejectedRemote
  | _ => True

/-- A call that is not initiated locally is never rejected by the other side, by the reasons that
are given, and there is one record or one block to make it. -/
structure Steady (s : LoggedCall I C T) : Prop where
  inProgress : s.initiatedLocally = false →
    ∀ steps ∈ s.controller.inProgress, ∀ step ∈ steps, OfIncomingCall step
  notRejected : s.initiatedLocally = false →
    ∀ t ∈ s.controller.termination, t.type ≠ .rejectedRemote
  records : s.recentCalls.length + s.blockPending.toNat = s.added.toNat
  unterminated : s.controller.termination = none → s.recentCalls = []

variable {s s' : LoggedCall I C T} {t : CallTermination I}

theorem ofIncomingCall_terminate (ht : t.type ≠ .rejectedRemote) :
    ∀ step ∈ CallController.terminate t, OfIncomingCall step := by
  intro step hstep
  simp only [CallController.terminate, List.mem_cons, List.not_mem_nil, or_false] at hstep
  rcases hstep with rfl | rfl | rfl | rfl | rfl | rfl
  · exact ht
  all_goals trivial

theorem ofIncomingCall_steps {method : CallController.Method I}
    (hreason : ∀ t, method = .terminateWithReason t → t.type ≠ .rejectedRemote)
    (hremote : ∀ failureInfo relatedInfo,
      method ≠ .terminateWithRejectionOrRemoteHangup failureInfo relatedInfo) :
    ∀ step ∈ method.steps, OfIncomingCall step := by
  cases method with
  | terminateWithReason t => exact ofIncomingCall_terminate (hreason t rfl)
  | terminateWithRejectionOrRemoteHangup failureInfo relatedInfo =>
    exact absurd rfl (hremote failureInfo relatedInfo)
  | backgroundTimeExpired => exact ofIncomingCall_terminate nofun
  | advanceCallProgressTo type =>
    intro step hstep
    dsimp only [CallController.Method.steps] at hstep
    split at hstep
    · obtain rfl := List.mem_singleton.mp hstep
      trivial
    · cases hstep
  | hangupOrDenyCall =>
    intro step hstep
    obtain rfl := List.mem_singleton.mp hstep
    trivial
  | acceptCall =>
    intro step hstep
    obtain rfl := List.mem_singleton.mp hstep
    trivial
  | advanceCallProgressToConversingWithShortAuthenticationString sas =>
    intro step hstep
    simp only [CallController.Method.steps, List.mem_cons, List.not_mem_nil, or_false] at hstep
    rcases hstep with rfl | rfl <;> trivial

/-- A step of a call leaves others of the same kind, and a termination that is there. -/
theorem ofIncomingCall_execute [DecidableEq T] {controller : CallController I C T}
    {first : CallStep I} {later : List (CallStep I)} (hfirst : OfIncomingCall first)
    (hlater : ∀ step ∈ later, OfIncomingCall step) :
    ∀ step ∈ (controller.execute later first).2, OfIncomingCall step := by
  cases first with
  | rejectionOrRemoteHangup failureInfo relatedInfo => exact hfirst.elim
  | denyAndTerminate =>
    apply ofIncomingCall_terminate
    dsimp only
    split <;> exact nofun
  | setTermination t =>
    unfold CallController.execute
    dsimp only
    split
    · exact hlater
    · exact nofun
  | _ => exact hlater

/-- The only step that terminates. -/
theorem termination_execute [DecidableEq T] (controller : CallController I C T)
    (first : CallStep I) (later : List (CallStep I)) :
    (controller.execute later first).1.termination = controller.termination ∨
      ∃ t, first = .setTermination t ∧ controller.termination = none ∧
        (controller.execute later first).1.termination = some t := by
  cases first with
  | setTermination t =>
    cases h : controller.termination with
    | none =>
      refine .inr ⟨t, rfl, rfl, ?_⟩
      simp [CallController.execute, CallController.trySet, h]
    | some t' =>
      refine .inl ?_
      simp [CallController.execute, CallController.trySet, h]
  | _ => exact .inl rfl

variable [DecidableEq C] [DecidableEq T]

theorem termination_step {controller controller' : CallController I C T}
    {e : CallController.Event I C T} (hstep : controller.step e = some controller') :
    controller'.termination = controller.termination ∨
      ∃ i t later, e = .execute i ∧
        controller.inProgress[i]? = some (.setTermination t :: later) ∧
        controller.termination = none ∧ controller'.termination = some t := by
  cases e with
  | call method =>
    obtain rfl := Option.some.inj hstep
    exact .inl rfl
  | execute i =>
    simp only [CallController.step] at hstep
    split at hstep
    case h_2 => cases hstep
    case h_1 first later hi =>
      obtain rfl := Option.some.inj hstep
      rcases termination_execute controller first later with hsame | ⟨t, rfl, hnone, hsome⟩
      · exact .inl hsame
      · exact .inr ⟨i, t, later, rfl, hi, hnone, hsome⟩
  | progress e =>
    simp only [CallController.step] at hstep
    split at hstep
    case isTrue => cases hstep
    case isFalse =>
      obtain ⟨progress, -, rfl⟩ := Option.map_eq_some_iff.mp hstep
      exact .inl rfl

/-- The calls in progress stay those of an incoming call. -/
theorem inProgress_step {controller controller' : CallController I C T}
    {e : CallController.Event I C T} (hstep : controller.step e = some controller')
    (hcall : ∀ method, e = .call method → ∀ step ∈ method.steps, OfIncomingCall step)
    (h : ∀ steps ∈ controller.inProgress, ∀ step ∈ steps, OfIncomingCall step) :
    ∀ steps ∈ controller'.inProgress, ∀ step ∈ steps, OfIncomingCall step := by
  cases e with
  | call method =>
    obtain rfl := Option.some.inj hstep
    intro steps hsteps
    rcases List.mem_append.mp hsteps with hsteps | hsteps
    · exact h steps hsteps
    · obtain rfl := List.mem_singleton.mp hsteps
      exact hcall method rfl
  | execute i =>
    simp only [CallController.step] at hstep
    split at hstep
    case h_2 => cases hstep
    case h_1 first later hi =>
      obtain rfl := Option.some.inj hstep
      have hsame : (controller.execute later first).1.inProgress = controller.inProgress := by
        cases first <;> rfl
      obtain ⟨hfirst, hlater⟩ := List.forall_mem_cons.mp (h _ (List.mem_of_getElem? hi))
      intro steps hsteps
      dsimp only at hsteps
      rw [hsame] at hsteps
      rcases List.mem_or_eq_of_mem_set hsteps with hsteps | rfl
      · exact h steps hsteps
      · exact ofIncomingCall_execute hfirst hlater
  | progress e =>
    simp only [CallController.step] at hstep
    split at hstep
    case isTrue => cases hstep
    case isFalse =>
      obtain ⟨progress, -, rfl⟩ := Option.map_eq_some_iff.mp hstep
      exact h

/-- What the controller does leaves the records as they are. -/
theorem Steady.controllerStep (h : Steady s) {e : CallController.Event I C T}
    (hstep : s.controllerStep e = some s')
    (hcall : s.initiatedLocally = false → ∀ method, e = .call method →
      ∀ step ∈ method.steps, OfIncomingCall step) : Steady s' := by
  obtain ⟨controller, hcontroller, rfl⟩ := Option.map_eq_some_iff.mp hstep
  constructor
  case inProgress =>
    intro hincoming
    exact inProgress_step hcontroller (hcall hincoming) (h.inProgress hincoming)
  case notRejected =>
    intro hincoming t ht
    rcases termination_step hcontroller with hsame | ⟨i, t', later, -, hi, -, hsome⟩
    · exact h.notRejected hincoming t (hsame ▸ ht)
    · obtain rfl : t' = t := Option.some.inj (hsome.symm.trans ht)
      exact h.inProgress hincoming _ (List.mem_of_getElem? hi) (.setTermination t')
        List.mem_cons_self
  case records => exact h.records
  case unterminated =>
    intro hnone
    rcases termination_step hcontroller with hsame | ⟨i, t, later, -, -, -, hsome⟩
    · exact h.unterminated (hsame.symm.trans hnone)
    · cases hsome.symm.trans hnone

theorem RecordedRightly.controllerStep (h : RecordedRightly s) {e : CallController.Event I C T}
    (hstep : s.controllerStep e = some s') : RecordedRightly s' := by
  obtain ⟨controller, hcontroller, rfl⟩ := Option.map_eq_some_iff.mp hstep
  have hcases := termination_step hcontroller
  constructor
  case unterminated =>
    intro hnone
    rcases hcases with hsame | ⟨i, t, later, -, -, -, hsome⟩
    · exact h.unterminated (hsame.symm.trans hnone)
    · cases hsome.symm.trans hnone
  case once => exact h.once
  case recorded => exact h.recorded
  case callType =>
    intro r hr t ht
    rcases hcases with hsame | ⟨i, t', later, -, -, hnone, -⟩
    · have hbefore : s.controller.termination = some t := hsame.symm.trans ht
      dsimp only
      rw [if_neg (by rw [hbefore]; exact Bool.false_ne_true)]
      exact h.callType r hr t hbefore
    · dsimp only at hr
      rw [h.unterminated hnone] at hr
      cases hr

variable [DecidableEq I]

omit [DecidableEq C] [DecidableEq T] in
/-- Who calls the controller of an incoming call never says that the other side rejected it. -/
theorem ofIncomingCall_of_canHappen {method : CallController.Method I} (h : Steady s)
    (hincoming : s.initiatedLocally = false)
    (hmethod : s.canHappen (.call method) = true) : ∀ step ∈ method.steps, OfIncomingCall step := by
  apply ofIncomingCall_steps
  · rintro t rfl
    rcases Bool.or_eq_true_iff.mp hmethod with hothers | hsame
    · intro hrejected
      rw [hrejected] at hothers
      cases hothers
    · exact h.notRejected hincoming t (of_decide_eq_true hsame)
  · rintro failureInfo relatedInfo rfl
    cases hmethod

omit [DecidableEq C] [DecidableEq T] [DecidableEq I] in
theorem ofIncomingCall_of_serverRequest {failures : RequestFailures I} {hasSession : Bool}
    {request : ServerRequest I} {method : CallController.Method I}
    (hincoming : s.initiatedLocally = false)
    (hmethod : (s.respondToServerRequest failures hasSession request).1 = some method) :
    ∀ step ∈ method.steps, OfIncomingCall step := by
  unfold respondToServerRequest at hmethod
  rw [if_neg (by rw [hincoming]; exact Bool.false_ne_true)] at hmethod
  unfold ServerRequest.answeredByResponder at hmethod
  split at hmethod
  · cases hmethod
  · split at hmethod
    · obtain rfl := Option.some.inj hmethod
      exact ofIncomingCall_terminate nofun
    · obtain rfl := Option.some.inj hmethod
      exact ofIncomingCall_terminate nofun

theorem Steady.step (h : Steady s) {e : Event I C T} (hstep : s.step e = some s') : Steady s' := by
  cases e with
  | controller e =>
    obtain ⟨hevent, hstep⟩ := Option.ite_none_right_eq_some.mp hstep
    refine h.controllerStep hstep ?_
    rintro hincoming method rfl
    exact ofIncomingCall_of_canHappen h hincoming hevent
  | serverRequest failures hasSession request =>
    simp only [LoggedCall.step] at hstep
    split at hstep
    case h_1 method hmethod =>
      refine h.controllerStep hstep ?_
      rintro hincoming _ ⟨⟩
      exact ofIncomingCall_of_serverRequest hincoming hmethod
    case h_2 =>
      obtain rfl := Option.some.inj hstep
      exact h
  | addCall =>
    simp only [LoggedCall.step] at hstep
    split at hstep
    case isTrue => cases hstep
    case isFalse hadded =>
      obtain rfl := Option.some.inj hstep
      have hrecords := h.records
      rw [Bool.eq_false_of_not_eq_true hadded, Bool.toNat_false] at hrecords
      refine ⟨h.inProgress, h.notRejected, ?_, h.unterminated⟩
      show s.recentCalls.length + 1 = 1
      omega
  | finallyDo contacts =>
    obtain ⟨hpending, hstep⟩ := Option.ite_none_right_eq_some.mp hstep
    obtain ⟨t, ht, rfl⟩ := Option.map_eq_some_iff.mp hstep
    have hrecords := h.records
    rw [hpending, Bool.toNat_true] at hrecords
    refine ⟨h.inProgress, h.notRejected, ?_, fun hnone => by cases hnone.symm.trans ht⟩
    show (s.recentCalls ++ [_]).length + 0 = s.added.toNat
    rw [List.length_append, List.length_singleton]
    exact hrecords

omit [DecidableEq C] [DecidableEq T] [DecidableEq I] in
/-- The two differ in the calls that the other side ended after the user had answered, or before we
made contact. -/
theorem callType_eq_promised_iff (h : s.initiatedLocally = false → t.type ≠ .rejectedRemote) :
    RecentCallManager.callType s.initiatedLocally t =
        promisedCallType s.initiatedLocally s.answeredBefore t ↔
      s.initiatedLocally = true ∨ ReasonFits t s.answeredBefore := by
  unfold RecentCallManager.callType RecentCallManager.isMissedCall promisedCallType endedByRemote
    ReasonFits
  cases hlocal : s.initiatedLocally with
  | true => simp
  | false =>
    have hnotRejected := h hlocal
    by_cases hhangup : t.type = .hangupRemote
    · cases s.answeredBefore <;> simp [hhangup]
    · by_cases hstale : t.type = .staleSession
      · cases s.answeredBefore <;> simp [hstale]
      · simp [hhangup, hstale, hnotRejected]

/-- Only the block of `finallyDo` can record a call wrongly. -/
theorem recordedRightly_step_iff (h : RecordedRightly s) (hs : Steady s) {e : Event I C T}
    (hstep : s.step e = some s') : RecordedRightly s' ↔ ReasonFitsAnswer s e := by
  cases e with
  | controller e =>
    obtain ⟨-, hstep⟩ := Option.ite_none_right_eq_some.mp hstep
    exact iff_of_true (h.controllerStep hstep) trivial
  | serverRequest failures hasSession request =>
    simp only [LoggedCall.step] at hstep
    split at hstep
    case h_1 method hmethod => exact iff_of_true (h.controllerStep hstep) trivial
    case h_2 =>
      obtain rfl := Option.some.inj hstep
      exact iff_of_true h trivial
  | addCall =>
    simp only [LoggedCall.step] at hstep
    split at hstep
    case isTrue => cases hstep
    case isFalse =>
      obtain rfl := Option.some.inj hstep
      exact iff_of_true ⟨h.unterminated, h.once, nofun, h.callType⟩ trivial
  | finallyDo contacts =>
    obtain ⟨hpending, hstep⟩ := Option.ite_none_right_eq_some.mp hstep
    obtain ⟨t, ht, rfl⟩ := Option.map_eq_some_iff.mp hstep
    have hnone : s.recentCalls = [] := by
      have hrecords := hs.records
      have hadded := Bool.toNat_le s.added
      rw [hpending, Bool.toNat_true] at hrecords
      exact List.length_eq_zero_iff.mp (by omega)
    have hguard : ReasonFitsAnswer s (.finallyDo contacts : Event I C T) ↔
        s.initiatedLocally = true ∨ ReasonFits t s.answeredBefore := by
      constructor
      · exact fun hguard => hguard t ht
      · intro hright t' ht'
        obtain rfl := Option.some.inj (ht.symm.trans ht')
        exact hright
    rw [hguard, ← callType_eq_promised_iff fun hlocal => hs.notRejected hlocal t ht]
    constructor
    · intro hright
      exact hright.callType (s.recentCall contacts t)
        (List.mem_append_right _ (List.mem_singleton_self _)) t ht
    · intro heq
      refine ⟨fun hnone => ?_, ?_, fun _ _ => ?_, ?_⟩
      · cases hnone.symm.trans ht
      · simp [hnone]
      · simp [hnone]
      · intro r hr t' ht'
        obtain rfl := Option.some.inj (ht.symm.trans ht')
        dsimp only at hr
        rw [hnone, List.nil_append, List.mem_singleton] at hr
        rw [hr]
        exact heq

theorem steady_init (canceller : T) (initiatedLocally : Bool) (remoteNumber : String)
    (contact : Option ℤ) :
    Steady (machine (I := I) (C := C) canceller initiatedLocally remoteNumber contact).init where
  inProgress _ _ hsteps := absurd hsteps List.not_mem_nil
  notRejected _ _ ht := by cases ht
  records := rfl
  unterminated _ := rfl

theorem steady_of_run {canceller : T} {initiatedLocally : Bool} {remoteNumber : String}
    {contact : Option ℤ} {tr : History (LoggedCall I C T) (Event I C T)}
    (h : (machine canceller initiatedLocally remoteNumber contact).Run tr) :
    Steady ((machine canceller initiatedLocally remoteNumber contact).last tr) :=
  h.state_invariant (I := Steady) (steady_init _ _ _ _) fun _ _ _ hs hstep => hs.step hstep

/-- Calls are recorded as promised as long as no incoming call is recorded that the other side
ended after the user had accepted or denied it, or that had ended before we made contact. -/
theorem recordedRightly_iff {canceller : T} {initiatedLocally : Bool} {remoteNumber : String}
    {contact : Option ℤ} {tr : History (LoggedCall I C T) (Event I C T)}
    (h : (machine canceller initiatedLocally remoteNumber contact).Run tr) :
    Machine.Always (fun tr => RecordedRightly
        ((machine canceller initiatedLocally remoteNumber contact).last tr)) tr ↔
      Machine.Guarded (fun tr e => ReasonFitsAnswer
        ((machine canceller initiatedLocally remoteNumber contact).last tr) e) tr :=
  h.always_iff_guarded ⟨fun _ => rfl, Nat.zero_le _, nofun, fun _ hr => absurd hr List.not_mem_nil⟩
    fun _ _ _ hrun hbefore hstep => recordedRightly_step_iff hbefore (steady_of_run hrun) hstep

omit [DecidableEq C] [DecidableEq T] [DecidableEq I] in
theorem not_promised_of_record {r : RecentCall} (hrecent : s.recentCalls = [r])
    (ht : s.controller.termination = some t)
    (hne : r.callType ≠ promisedCallType s.initiatedLocally s.answeredBefore t) :
    ¬ RecordedRightly s :=
  fun h => hne (h.callType r (hrecent ▸ List.mem_singleton_self _) t ht)

def hangupRequest : Event ℕ ℕ ℕ :=
  .serverRequest ⟨0, 1⟩ true { request := 2, isHangupForSession := true }

/-- The other side hangs up while the phone rings. -/
def hungUpWhileRinging : List (Event ℕ ℕ ℕ) :=
  [.addCall, .controller (.call (.advanceCallProgressTo .ringing)), .controller (.execute 0),
    hangupRequest, .controller (.execute 1), .finallyDo fun _ => none]

theorem recordedRightly_hungUpWhileRinging : ∃ tr,
    (machine 0 false "+14155550101" none).exec hungUpWhileRinging = some tr ∧
    ((machine 0 false "+14155550101" none).last tr).recentCalls.map (·.callType) = [.missed] ∧
    Machine.Always (fun tr =>
      RecordedRightly ((machine 0 false "+14155550101" none).last tr)) tr := by
  have hexec : ((machine 0 false "+14155550101" none).exec hungUpWhileRinging).map (fun tr =>
      (((machine 0 false "+14155550101" none).last tr).recentCalls.map (·.callType),
        decide (Machine.Guarded (fun tr e => ReasonFitsAnswer
          ((machine 0 false "+14155550101" none).last tr) e) tr))) =
      some ([.missed], true) := by
    decide +kernel
  obtain ⟨tr, htr, hboth⟩ := Option.map_eq_some_iff.mp hexec
  obtain ⟨htypes, hguarded⟩ := Prod.mk.inj hboth
  exact ⟨tr, htr, htypes,
    (recordedRightly_iff (Machine.run_of_exec htr)).mpr (of_decide_eq_true hguarded)⟩

/-- The user accepts the call, and the other side hangs up in the end. -/
def hungUpAfterTalking : List (Event ℕ ℕ ℕ) :=
  [.addCall, .controller (.call .acceptCall), .controller (.execute 0),
    .controller (.call (.advanceCallProgressToConversingWithShortAuthenticationString "sas")),
    .controller (.execute 1), .controller (.execute 1), hangupRequest, .controller (.execute 2),
    .finallyDo fun _ => none]

/-- The server answers the ring by saying that the call is over. -/
def endedBeforeContact : List (Event ℕ ℕ ℕ) :=
  [.addCall, .controller (.call (.terminateWithReason ⟨.staleSession, some 4, some 5⟩)),
    .controller (.execute 0), .finallyDo fun _ => none]

/-- A call that was answered is recorded as missed, and one that was missed is not. -/
theorem not_recordedRightly :
    (∃ tr : History (LoggedCall ℕ ℕ ℕ) (Event ℕ ℕ ℕ),
      (machine 0 false "+14155550101" none).Run tr ∧
      ((machine 0 false "+14155550101" none).last tr).controller.interactiveCallAcceptedOrDenied =
        some (.ok true) ∧
      ((machine 0 false "+14155550101" none).last tr).recentCalls.map (·.callType) = [.missed] ∧
      ¬ RecordedRightly ((machine 0 false "+14155550101" none).last tr)) ∧
    ∃ tr : History (LoggedCall ℕ ℕ ℕ) (Event ℕ ℕ ℕ),
      (machine 0 false "+14155550101" none).Run tr ∧
      isAnswered ((machine 0 false "+14155550101" none).last tr).controller = false ∧
      ((machine 0 false "+14155550101" none).last tr).recentCalls.map (·.callType) = [.incoming] ∧
      ¬ RecordedRightly ((machine 0 false "+14155550101" none).last tr) := by
  constructor
  · have hexec : ((machine 0 false "+14155550101" none).exec hungUpAfterTalking).map (fun tr =>
        let s := (machine 0 false "+14155550101" none).last tr
        (s.controller.interactiveCallAcceptedOrDenied, s.controller.termination,
          s.initiatedLocally, s.answeredBefore, s.recentCalls)) =
        some (some (.ok true), some ⟨.hangupRemote, none, some 2⟩, false, true,
          [⟨0, "+14155550101", .missed, false⟩]) := by
      rfl
    obtain ⟨tr, htr, hlast⟩ := Option.map_eq_some_iff.mp hexec
    simp only [Prod.mk.injEq] at hlast
    obtain ⟨haccepted, htermination, hlocal, hanswered, hrecent⟩ := hlast
    refine ⟨tr, Machine.run_of_exec htr, haccepted, ?_, ?_⟩
    · rw [hrecent]
      rfl
    · apply not_promised_of_record hrecent htermination
      rw [hlocal, hanswered]
      exact nofun
  · have hexec : ((machine 0 false "+14155550101" none).exec endedBeforeContact).map (fun tr =>
        let s := (machine 0 false "+14155550101" none).last tr
        (isAnswered s.controller, s.controller.termination, s.initiatedLocally, s.answeredBefore,
          s.recentCalls)) =
        some (false, some ⟨.staleSession, some 4, some 5⟩, false, false,
          [⟨0, "+14155550101", .incoming, true⟩]) := by
      rfl
    obtain ⟨tr, htr, hlast⟩ := Option.map_eq_some_iff.mp hexec
    simp only [Prod.mk.injEq] at hlast
    obtain ⟨hnever, htermination, hlocal, hanswered, hrecent⟩ := hlast
    refine ⟨tr, Machine.run_of_exec htr, hnever, ?_, ?_⟩
    · rw [hrecent]
      rfl
    · apply not_promised_of_record hrecent htermination
      rw [hlocal, hanswered]
      exact nofun

end LoggedCall
end SignalIOS.Phone
