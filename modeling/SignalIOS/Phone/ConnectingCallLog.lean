import SignalIOS.Phone.CallOutcomes
import SignalIOS.Phone.RecentCalls

/-! The log of the calls, for calls with their signaling server: what the log takes a request of the
server for is read off the request itself. -/
namespace SignalIOS.Phone
open SignalIOS.Lib SignalIOS.Http SignalIOS.Call Http.HttpResponse Signaling

/-- What a request is for the session of a call, if there is one yet. -/
def ServerRequest.ofRequest [NumberReading] (request : HttpRequest) (sessionId : Option Int64) :
    ServerRequest FailureInfo where
  request := .request request
  isKeepAlive := request.isKeepAlive
  isHangupForSession := sessionId.any request.isHangupForSession
  isRingingForSession := sessionId.any request.isRingingForSession
  isBusyForSession := sessionId.any request.isBusyForSession

def ServerResponse.httpResponse : ServerResponse → HttpResponse
  | .ok200 => httpResponse200Ok
  | .internalServerError500 => httpResponse500InternalServerError
  | .notImplemented501 => httpResponse501NotImplemented

def requestFailures : RequestFailures FailureInfo where
  unrecognizedRequestFailure :=
    .unrecognizedRequestFailure "Didn't understand signaling server."
  ignoredPacketFailure :=
    .ignoredPacketFailure ("Didn't receive session id from signaling server. " ++
      "Not able to understand request.")

def CallRole.initiatedLocally : CallRole → Bool
  | .initiator _ => true
  | .responder _ _ => false

section Requests
variable [NumberReading] {C T : Type*}

theorem respondToServerRequest_initiator (request : HttpRequest)
    (descriptor : Option InitiatorSessionDescriptor) :
    CallConnectUtil_Initiator.respondToServerRequest request descriptor =
      Prod.map id ServerResponse.httpResponse
        (ServerRequest.answeredByInitiator requestFailures descriptor.isSome
          (.ofRequest request (descriptor.map (·.sessionId)))) := by
  unfold CallConnectUtil_Initiator.respondToServerRequest
    ServerRequest.answeredByInitiator
  cases hkeepAlive : request.isKeepAlive with
  | true => simp [ServerRequest.ofRequest, hkeepAlive, ServerResponse.httpResponse]
  | false =>
    cases descriptor with
    | none =>
      simp [ServerRequest.ofRequest, hkeepAlive, ServerResponse.httpResponse, requestFailures]
    | some descriptor =>
      simp only [ServerRequest.ofRequest, hkeepAlive, Option.isSome_some, Option.map_some,
        Option.any_some, Bool.false_eq_true, Bool.not_true, if_false,
        apply_ite (Prod.map id ServerResponse.httpResponse)]
      rfl

theorem respondToServerRequest_responder (request : HttpRequest)
    (descriptor : Signaling.ResponderSessionDescriptor) :
    CallConnectUtil_Responder.respondToServerRequest request descriptor =
      Prod.map id ServerResponse.httpResponse
        (ServerRequest.answeredByResponder requestFailures
          (.ofRequest request (some descriptor.sessionId))) := by
  unfold CallConnectUtil_Responder.respondToServerRequest
    ServerRequest.answeredByResponder
  cases hkeepAlive : request.isKeepAlive with
  | true => simp [ServerRequest.ofRequest, hkeepAlive, ServerResponse.httpResponse]
  | false =>
    cases hhangup : request.isHangupForSession descriptor.sessionId <;>
      simp [ServerRequest.ofRequest, hkeepAlive, hhangup, ServerResponse.httpResponse,
        requestFailures]

/-- The logged call makes the same of a request as the call with its server. -/
theorem respondToServerRequest_eq {s : ConnectingCall C T} {l : LoggedCall FailureInfo C T}
    (h : l.initiatedLocally = s.role.initiatedLocally) (request : HttpRequest) :
    s.respondToServerRequest request =
      Prod.map id ServerResponse.httpResponse
        (l.respondToServerRequest requestFailures s.initiatorSessionDescriptor.isSome
          (.ofRequest request s.sessionId)) := by
  unfold ConnectingCall.respondToServerRequest LoggedCall.respondToServerRequest
    ConnectingCall.sessionId
  cases hrole : s.role with
  | initiator initiateRequest =>
    have hlocally : l.initiatedLocally = true := by rw [h, hrole]; rfl
    rw [if_pos hlocally]
    exact respondToServerRequest_initiator request s.initiatorSessionDescriptor
  | responder descriptor ringRequest =>
    have hlocally : ¬ l.initiatedLocally = true := by rw [h, hrole]; exact Bool.false_ne_true
    rw [if_neg hlocally]
    exact respondToServerRequest_responder request descriptor

end Requests

/-- A call with its server as one that is logged, and that nobody has recorded so far. -/
structure LoggedCall.IsOf {C T : Type*} (l : LoggedCall FailureInfo C T)
    (s : ConnectingCall C T) (role : CallRole) : Prop where
  controller : l.controller = s.controller
  sameRole : s.role = role
  initiatedLocally : l.initiatedLocally = role.initiatedLocally
  added : l.added = false
  blockPending : l.blockPending = false
  recentCalls : l.recentCalls = []

section Calls
variable {C T : Type*}

theorem isGivenByOthers_badResponse_initiator {badResponse : HttpResponse}
    {initiateRequest : HttpRequest} {t : CallTermination FailureInfo}
    (h : CallConnectUtil_Initiator.callTerminationForBadResponse badResponse initiateRequest =
      .ok t) : t.type.isGivenByOthers = true := by
  unfold CallConnectUtil_Initiator.callTerminationForBadResponse at h
  split_ifs at h
  · obtain rfl := Except.ok.inj h
    rfl
  · obtain ⟨message, -, h⟩ := Throws.bind_eq_ok.mp h
    obtain rfl := Except.ok.inj h
    rfl
  · obtain rfl := Except.ok.inj h
    rfl
  · obtain rfl := Except.ok.inj h
    rfl

theorem isGivenByOthers_badResponse_responder (badResponse : HttpResponse)
    (ringRequest : HttpRequest) :
    (CallConnectUtil_Responder.callTerminationForBadResponse badResponse
      ringRequest).type.isGivenByOthers = true := by
  unfold CallConnectUtil_Responder.callTerminationForBadResponse
  split_ifs <;> rfl

variable [DecidableEq FailureInfo] {s s' : ConnectingCall C T} {l : LoggedCall FailureInfo C T}

theorem canHappen_of_isGivenByOthers {t : CallTermination FailureInfo}
    (h : t.type.isGivenByOthers = true) (l : LoggedCall FailureInfo C T) :
    l.canHappen (.call (.terminateWithReason t)) = true := Bool.or_eq_true_iff.mpr (.inl h)

/-- A response of the server gives its own reasons. -/
theorem handleResponse_call [JSONSerialization] (s : ConnectingCall C T) (response : HttpResponse) :
    ∃ method, (s.handleResponse response).controller = (s.call method).controller ∧
      (s.handleResponse response).role = s.role ∧
      ∀ m, method = some m → ∀ l : LoggedCall FailureInfo C T, l.canHappen (.call m) = true := by
  have hcall (m : CallController.Method FailureInfo) (u : ConnectingCall C T)
      (hu : u.controller = (s.call (some m)).controller) (hrole : u.role = s.role)
      (hm : ∀ l : LoggedCall FailureInfo C T, l.canHappen (.call m) = true) :
      ∃ method, u.controller = (s.call method).controller ∧ u.role = s.role ∧
        ∀ m, method = some m → ∀ l : LoggedCall FailureInfo C T, l.canHappen (.call m) = true := by
    refine ⟨some m, hu, hrole, ?_⟩
    rintro _ ⟨⟩
    exact hm
  unfold ConnectingCall.handleResponse
  dsimp only
  split
  case h_1 initiateRequest hrole =>
    split
    · split
      · refine ⟨none, rfl, rfl, ?_⟩
        rintro m ⟨⟩
      · exact hcall _ _ rfl rfl (canHappen_of_isGivenByOthers rfl)
    · split
      case h_1 t ht =>
        exact hcall _ _ rfl rfl
          (canHappen_of_isGivenByOthers (isGivenByOthers_badResponse_initiator ht))
      case h_2 => exact hcall _ _ rfl rfl (canHappen_of_isGivenByOthers rfl)
  case h_2 descriptor ringRequest hrole =>
    split
    · exact hcall _ _ rfl rfl fun _ => rfl
    · exact hcall _ _ rfl rfl
        (canHappen_of_isGivenByOthers (isGivenByOthers_badResponse_responder _ _))

/-- So does a report, unless it passes on the termination. -/
theorem canHappen_of_report (h : l.controller = s.controller)
    (hfails : s.controller.FailsWithTermination) {report : Report}
    {method : CallController.Method FailureInfo} (hmethod : s.reportMethod report = some method) :
    l.canHappen (.call method) = true := by
  cases report with
  | notAccepted =>
    simp only [ConnectingCall.reportMethod] at hmethod
    split at hmethod
    · obtain rfl := Option.some.inj hmethod
      exact canHappen_of_isGivenByOthers rfl l
    case h_2 t hfailed =>
      obtain rfl := Option.some.inj hmethod
      have htermination : l.controller.termination = some t := by
        rw [h]
        exact hfails t hfailed
      exact Bool.or_eq_true_iff.mpr (.inr (decide_eq_true htermination))
    · cases hmethod
  | _ =>
    obtain rfl := Option.some.inj hmethod
    rfl

variable [DecidableEq C] [DecidableEq T] {role : CallRole}

namespace LoggedCall

omit [DecidableEq FailureInfo] in
/-- What the controller does, that of the logged call does. -/
theorem IsOf.controllerStep (h : l.IsOf s role) (s' : ConnectingCall C T)
    {e : CallController.Event FailureInfo C T} (hstep : s.controller.step e = some s'.controller)
    (hrole : s'.role = s.role) :
    ∃ l', l.controllerStep e = some l' ∧ l'.IsOf s' role := by
  have hcontroller : l.controller.step e = some s'.controller := by
    rw [h.controller]
    exact hstep
  refine ⟨_, Option.map_eq_some_iff.mpr ⟨s'.controller, hcontroller, rfl⟩, ?_⟩
  exact ⟨rfl, hrole.trans h.sameRole, h.initiatedLocally, h.added, h.blockPending, h.recentCalls⟩

theorem IsOf.call (h : l.IsOf s role) {method : Option (CallController.Method FailureInfo)}
    (hcontroller : s'.controller = (s.call method).controller) (hrole : s'.role = s.role)
    (hcan : ∀ m, method = some m → l.canHappen (.call m) = true) :
    l.IsOf s' role ∨ ∃ e l', l.step e = some l' ∧ l'.IsOf s' role := by
  cases method with
  | none =>
    exact .inl ⟨h.controller.trans hcontroller.symm, hrole.trans h.sameRole, h.initiatedLocally,
      h.added, h.blockPending, h.recentCalls⟩
  | some m =>
    have hstep : s.controller.step (.call m) = some s'.controller := by
      rw [hcontroller]
      exact ConnectingCall.controller_step_call s
    obtain ⟨l', hl', hof⟩ := h.controllerStep s' hstep hrole
    exact .inr ⟨.controller (.call m), l', (if_pos (hcan m rfl)).trans hl', hof⟩

variable [NumberReading] [JSONSerialization]

/-- Whatever happens to a call with its server happens to the logged call, or nothing does. -/
theorem IsOf.step (h : l.IsOf s role) (hfails : s.controller.FailsWithTermination)
    {e : ConnectingCall.Event C T} (hstep : s.step e = some s') :
    l.IsOf s' role ∨ ∃ e l', l.step e = some l' ∧ l'.IsOf s' role := by
  cases e with
  | serverRequest request =>
    obtain rfl := Option.some.inj hstep
    have hlocally : l.initiatedLocally = s.role.initiatedLocally := by
      rw [h.sameRole]
      exact h.initiatedLocally
    have hanswer := congrArg Prod.fst (respondToServerRequest_eq hlocally request)
    cases hmethod : (s.respondToServerRequest request).1 with
    | none =>
      exact .inl ⟨h.controller, h.sameRole, h.initiatedLocally, h.added, h.blockPending,
        h.recentCalls⟩
    | some m =>
      obtain ⟨l', hl', hof⟩ :=
        h.controllerStep (s.call (some m)) (ConnectingCall.controller_step_call s) rfl
      refine .inr ⟨.serverRequest requestFailures s.initiatorSessionDescriptor.isSome
        (.ofRequest request s.sessionId), l', ?_, ?_⟩
      · have hlogged : (l.respondToServerRequest requestFailures
            s.initiatorSessionDescriptor.isSome (.ofRequest request s.sessionId)).1 = some m :=
          hanswer.symm.trans hmethod
        simp only [LoggedCall.step, hlogged]
        exact hl'
      · exact ⟨hof.controller, hof.sameRole, hof.initiatedLocally, hof.added, hof.blockPending,
          hof.recentCalls⟩
  | response response =>
    simp only [ConnectingCall.step] at hstep
    split at hstep
    case isTrue => cases hstep
    case isFalse =>
      obtain rfl := Option.some.inj hstep
      obtain ⟨method, hcontroller, hrole, hcan⟩ := handleResponse_call s response
      exact h.call hcontroller hrole fun m hm => hcan m hm l
  | report report =>
    obtain rfl := Option.some.inj hstep
    refine h.call rfl ?_ fun m hm => canHappen_of_report h.controller hfails hm
    cases s.reportMethod report <;> rfl
  | execute i =>
    obtain ⟨controller, hcontroller, rfl⟩ := Option.map_eq_some_iff.mp hstep
    obtain ⟨l', hl', hof⟩ := h.controllerStep { s with controller } hcontroller rfl
    exact .inr ⟨.controller (.execute i), l', hl', hof⟩
  | progress e =>
    obtain ⟨controller, hcontroller, rfl⟩ := Option.map_eq_some_iff.mp hstep
    obtain ⟨l', hl', hof⟩ := h.controllerStep { s with controller } hcontroller rfl
    exact .inr ⟨.controller (.progress e), l', hl', hof⟩

variable {canceller : T} {tr : History (ConnectingCall C T) (ConnectingCall.Event C T)}

/-- Every run of a call with its server is one of a logged call, before anyone records it. -/
theorem exists_isOf_of_run (h : (ConnectingCall.machine role canceller).Run tr)
    (remoteNumber : String) (contact : Option ℤ) :
    ∃ tr', (machine canceller role.initiatedLocally remoteNumber contact).Run tr' ∧
      IsOf ((machine canceller role.initiatedLocally remoteNumber contact).last tr')
        ((ConnectingCall.machine role canceller).last tr) role := by
  refine h.simulate (R := fun s l => IsOf l s role) ⟨rfl, rfl, rfl, rfl, rfl, rfl⟩ ?_
  intro tr e s l hrun hof hstep
  obtain ⟨trController, hcontroller, hlast⟩ := ConnectingCall.controller_of_run hrun
  exact hof.step (hlast ▸ CallController.failsWithTermination_of_run hcontroller) hstep

/-- An incoming call is never rejected by the other side. -/
theorem notRejected_of_run (h : (ConnectingCall.machine role canceller).Run tr)
    (hincoming : role.initiatedLocally = false) {t : CallTermination FailureInfo}
    (ht : ((ConnectingCall.machine role canceller).last tr).controller.termination = some t) :
    t.type ≠ .rejectedRemote := by
  obtain ⟨tr', hrun, hof⟩ := exists_isOf_of_run h "" none
  apply (steady_of_run hrun).notRejected (hof.initiatedLocally.trans hincoming) t
  rw [hof.controller]
  exact ht

/-- Once the call is over, the log makes a record of it, and one that is missed is of an incoming
call whose end the server has told. -/
theorem exists_recorded_of_run (h : (ConnectingCall.machine role canceller).Run tr)
    (remoteNumber : String) (contact : Option ℤ) (latestContact : String → Option ℤ)
    {t : CallTermination FailureInfo}
    (ht : ((ConnectingCall.machine role canceller).last tr).controller.termination = some t) :
    ∃ tr' record, (machine canceller role.initiatedLocally remoteNumber contact).Run tr' ∧
      ((machine canceller role.initiatedLocally remoteNumber contact).last tr').controller =
        ((ConnectingCall.machine role canceller).last tr).controller ∧
      ((machine canceller role.initiatedLocally remoteNumber contact).last tr').recentCalls =
        [record] ∧
      (record.callType = .missed → role.initiatedLocally = false ∧ ∃ request,
        ((ConnectingCall.machine role canceller).last tr).Told .hangup request) := by
  obtain ⟨tr', hrun, hof⟩ := exists_isOf_of_run h remoteNumber contact
  let l := (machine canceller role.initiatedLocally remoteNumber contact).last tr'
  let seen : LoggedCall FailureInfo C T := { l with added := true, blockPending := true }
  let recorded : LoggedCall FailureInfo C T :=
    { seen with
      blockPending := false
      recentCalls := seen.recentCalls ++ [seen.recentCall latestContact t] }
  have htermination : l.controller.termination = some t := by
    rw [hof.controller]
    exact ht
  have hadd : l.step .addCall = some seen := by
    simp only [LoggedCall.step]
    have hadded : l.added = false := hof.added
    exact if_neg (by rw [hadded]; exact Bool.false_ne_true)
  have hrecord : seen.step (.finallyDo latestContact) = some recorded := by
    simp only [LoggedCall.step]
    rw [if_pos rfl, htermination]
    rfl
  refine ⟨(.finallyDo latestContact, recorded) :: (.addCall, seen) :: tr',
    seen.recentCall latestContact t, ⟨⟨hrun, hadd⟩, hrecord⟩, hof.controller, ?_, ?_⟩
  · show seen.recentCalls ++ [_] = [_]
    rw [show seen.recentCalls = [] from hof.recentCalls, List.nil_append]
  · intro hmissed
    replace hmissed : RecentCallManager.callType l.initiatedLocally t = .missed := hmissed
    rw [hof.initiatedLocally] at hmissed
    unfold RecentCallManager.callType at hmissed
    split_ifs at hmissed with hlocally hhangup
    have htype : t.type = .hangupRemote := of_decide_eq_true hhangup
    have hexplained := (ConnectingCall.sound_of_run h).allowed.termination t ht
    unfold ConnectingCall.Explained at hexplained
    rw [htype] at hexplained
    obtain ⟨request, htold, -⟩ := hexplained
    exact ⟨Bool.eq_false_of_not_eq_true hlocally, request, htold⟩

end LoggedCall
end Calls
end SignalIOS.Phone
