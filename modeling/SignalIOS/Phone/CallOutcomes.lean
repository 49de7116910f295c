import SignalIOS.Phone.ConnectingCall

/-! What a call is shown to have come to, and what has brought it there. -/
namespace SignalIOS.Phone
open SignalIOS.Lib SignalIOS.Http Http.HttpResponse Signaling

namespace ConnectingCall
variable {C T : Type*}

def isInitiator (s : ConnectingCall C T) : Prop :=
  match s.role with
  | .initiator _ => True
  | .responder _ _ => False

/-- The session of the call, as far as it is known. -/
def sessionId (s : ConnectingCall C T) : Option Int64 :=
  match s.role with
  | .initiator _ => s.initiatorSessionDescriptor.map (·.sessionId)
  | .responder descriptor _ => some descriptor.sessionId

section
variable [NumberReading]

/-- The server has told this of the session of the call, and got its answer. -/
def Told (s : ConnectingCall C T) (verb : SessionVerb) (request : HttpRequest) : Prop :=
  (request, httpResponse200Ok) ∈ s.handled ∧
    ∃ sessionId, s.sessionId = some sessionId ∧ request.Tells ⟨verb, sessionId⟩

/-- What must have happened before the progress is shown. The phone that is called rings once the
server has accepted that it does. -/
def Warranted (s : ConnectingCall C T) : CallProgressType → Prop
  | .connecting | .terminated => True
  | .ringing => (s.isInitiator ∧ ∃ request, s.Told .ring request) ∨
      ¬ s.isInitiator ∧ ∃ response, s.response = some response ∧ response.isOkResponse = true
  | .securing => .securing ∈ s.reports
  | .talking => ∃ sas, .connected sas ∈ s.reports

/-- What must have happened for a termination of the type. -/
def Explained [JSONSerialization] (s : ConnectingCall C T) (t : CallTermination FailureInfo) :
    Prop :=
  match t.type with
  | .loginFailed => ∃ response, s.response = some response ∧ response.statusCode = 401
  | .noSuchUser =>
    s.isInitiator ∧ ∃ response, s.response = some response ∧ response.statusCode = 404
  | .staleSession =>
    ¬ s.isInitiator ∧ ∃ response, s.response = some response ∧ response.statusCode = 404
  | .serverMessage => s.isInitiator ∧ ∃ response message, s.response = some response ∧
      response.statusCode = 402 ∧ response.getOptionalBodyText = .ok message ∧
      t.messageInfo = message.map .text
  | .responderIsBusy =>
    s.isInitiator ∧ ∃ request, s.Told .busy request ∧ t.messageInfo = some (.request request)
  | .recipientUnavailable => ∃ relatedInfo, .recipientUnavailable relatedInfo ∈ s.reports
  | .rejectedLocal | .hangupLocal => .hangupOrDenyCall ∈ s.reports
  | .rejectedRemote =>
    s.isInitiator ∧ ∃ request, s.Told .hangup request ∧ t.messageInfo = some (.request request)
  | .hangupRemote => ∃ request, s.Told .hangup request ∧ t.messageInfo = some (.request request)
  | .handshakeFailed =>
    ∃ failureInfo relatedInfo, .handshakeFailed failureInfo relatedInfo ∈ s.reports
  | .invalidRemotePublicKey => False
  | .replacedByNext => .replacedByNext ∈ s.reports
  | .badInteractionWithServer =>
    (∃ request answer, (request, answer) ∈ s.handled ∧ answer.isOkResponse = false ∧
      t.messageInfo = some (.request request)) ∨
    (∃ response, s.response = some response ∧ response.isOkResponse = false) ∨
    ∃ error, .relayUnreachable error ∈ s.reports
  | .uncategorizedFailure => .terminate ∈ s.reports ∨
    (∃ error relatedInfo, .error error relatedInfo ∈ s.reports) ∨
    s.isInitiator ∧ ∃ response e, s.response = some response ∧
      sessionDescriptorOfResponse response = .error e
  | .backgroundTimeExpired => .backgroundTimeExpired ∈ s.reports

end

/-- A request that is answered as none that is expected, or that tells of an end. -/
def EndsCall (x : HttpRequest × HttpResponse) : Prop :=
  x.2.isOkResponse = false ∨ x.1.method = SessionVerb.hangup.method ∨
    x.1.method = SessionVerb.busy.method

/-- What happens adds to what has happened. -/
structure Grows (s s' : ConnectingCall C T) : Prop where
  role : s'.role = s.role
  response : ∀ response, s.response = some response → s'.response = some response
  descriptor : ∀ descriptor, s.initiatorSessionDescriptor = some descriptor →
    s'.initiatorSessionDescriptor = some descriptor
  handled : s.handled ⊆ s'.handled
  reports : s.reports ⊆ s'.reports

section
variable {s s' : ConnectingCall C T}

theorem Grows.isInitiator (h : Grows s s') : s'.isInitiator = s.isInitiator := by
  unfold ConnectingCall.isInitiator
  rw [h.role]

theorem Grows.sessionId (h : Grows s s') {sessionId : Int64}
    (hsession : s.sessionId = some sessionId) : s'.sessionId = some sessionId := by
  unfold ConnectingCall.sessionId at hsession ⊢
  rw [h.role]
  split at hsession
  case h_1 =>
    obtain ⟨descriptor, hdescriptor, rfl⟩ := Option.map_eq_some_iff.mp hsession
    rw [h.descriptor descriptor hdescriptor, Option.map_some]
  case h_2 => exact hsession

variable [NumberReading]

theorem Told.mono {verb : SessionVerb} {request : HttpRequest} (htold : s.Told verb request)
    (h : Grows s s') : s'.Told verb request := by
  obtain ⟨hhandled, sessionId, hsession, htells⟩ := htold
  exact ⟨h.handled hhandled, sessionId, h.sessionId hsession, htells⟩

theorem Warranted.mono {type : CallProgressType} (hwarranted : s.Warranted type) (h : Grows s s') :
    s'.Warranted type := by
  cases type with
  | connecting => trivial
  | terminated => trivial
  | securing => exact h.reports hwarranted
  | talking =>
    obtain ⟨sas, hsas⟩ := hwarranted
    exact ⟨sas, h.reports hsas⟩
  | ringing =>
    unfold Warranted at hwarranted ⊢
    rw [h.isInitiator]
    rcases hwarranted with ⟨hrole, request, htold⟩ | ⟨hrole, response, hresponse, hok⟩
    · exact .inl ⟨hrole, request, htold.mono h⟩
    · exact .inr ⟨hrole, response, h.response response hresponse, hok⟩

theorem Explained.mono [JSONSerialization] {t : CallTermination FailureInfo} (ht : s.Explained t)
    (h : Grows s s') : s'.Explained t := by
  obtain ⟨type, failure, messageInfo⟩ := t
  have hinitiator := h.isInitiator
  cases type with
  | loginFailed =>
    obtain ⟨response, hresponse, hstatus⟩ := ht
    exact ⟨response, h.response response hresponse, hstatus⟩
  | noSuchUser =>
    obtain ⟨hrole, response, hresponse, hstatus⟩ := ht
    exact ⟨hinitiator ▸ hrole, response, h.response response hresponse, hstatus⟩
  | staleSession =>
    obtain ⟨hrole, response, hresponse, hstatus⟩ := ht
    exact ⟨hinitiator ▸ hrole, response, h.response response hresponse, hstatus⟩
  | serverMessage =>
    obtain ⟨hrole, response, message, hresponse, hmessage⟩ := ht
    exact ⟨hinitiator ▸ hrole, response, message, h.response response hresponse, hmessage⟩
  | responderIsBusy =>
    obtain ⟨hrole, request, htold, hinfo⟩ := ht
    exact ⟨hinitiator ▸ hrole, request, htold.mono h, hinfo⟩
  | recipientUnavailable =>
    obtain ⟨relatedInfo, hreport⟩ := ht
    exact ⟨relatedInfo, h.reports hreport⟩
  | rejectedLocal => exact h.reports ht
  | hangupLocal => exact h.reports ht
  | rejectedRemote =>
    obtain ⟨hrole, request, htold, hinfo⟩ := ht
    exact ⟨hinitiator ▸ hrole, request, htold.mono h, hinfo⟩
  | hangupRemote =>
    obtain ⟨request, htold, hinfo⟩ := ht
    exact ⟨request, htold.mono h, hinfo⟩
  | handshakeFailed =>
    obtain ⟨failureInfo, relatedInfo, hreport⟩ := ht
    exact ⟨failureInfo, relatedInfo, h.reports hreport⟩
  | invalidRemotePublicKey => exact ht.elim
  | replacedByNext => exact h.reports ht
  | badInteractionWithServer =>
    rcases ht with ⟨request, answer, hhandled, hanswer⟩ | ⟨response, hresponse, hok⟩ |
      ⟨error, hreport⟩
    · exact .inl ⟨request, answer, h.handled hhandled, hanswer⟩
    · exact .inr (.inl ⟨response, h.response response hresponse, hok⟩)
    · exact .inr (.inr ⟨error, h.reports hreport⟩)
  | uncategorizedFailure =>
    rcases ht with hreport | ⟨error, relatedInfo, hreport⟩ | ⟨hrole, response, e, hresponse, he⟩
    · exact .inl (h.reports hreport)
    · exact .inr (.inl ⟨error, relatedInfo, h.reports hreport⟩)
    · exact .inr (.inr ⟨hinitiator ▸ hrole, response, e, h.response response hresponse, he⟩)
  | backgroundTimeExpired => exact h.reports ht

end

section
variable {s s' : ConnectingCall C T}

theorem Grows.refl (s : ConnectingCall C T) : Grows s s :=
  ⟨rfl, fun _ h => h, fun _ h => h, List.Subset.refl _, List.Subset.refl _⟩

/-- A call of a method changes nothing but the controller. -/
theorem Grows.call {u : ConnectingCall C T} (h : Grows s u)
    (method : Option (CallController.Method FailureInfo)) : Grows s (u.call method) := by
  cases method with
  | none => exact h
  | some m => exact ⟨h.role, h.response, h.descriptor, h.handled, h.reports⟩

variable [NumberReading]

/-- The answers that an initiator gives are explained by the requests. -/
theorem allowed_initiator [JSONSerialization] {request : HttpRequest}
    {descriptor : Option InitiatorSessionDescriptor} {method : CallController.Method FailureInfo}
    {answer : HttpResponse}
    (h : CallConnectUtil_Initiator.respondToServerRequest request descriptor =
      (some method, answer))
    (hinitiator : s'.isInitiator) (hsession : s'.sessionId = descriptor.map (·.sessionId))
    (hhandled : (request, answer) ∈ s'.handled) :
    method.Allowed s'.Warranted s'.Explained := by
  unfold CallConnectUtil_Initiator.respondToServerRequest at h
  split_ifs at h with hkeepAlive
  case pos => cases (Prod.mk.inj h).1
  cases descriptor with
  | none =>
    obtain ⟨hmethod, rfl⟩ := Prod.mk.inj h
    obtain rfl := Option.some.inj hmethod
    exact .inl ⟨request, _, hhandled, rfl, rfl⟩
  | some descriptor =>
    have htold {verb : SessionVerb} (htells : request.Tells ⟨verb, descriptor.sessionId⟩)
        (hok : httpResponse200Ok = answer) : s'.Told verb request :=
      ⟨hok ▸ hhandled, descriptor.sessionId, hsession, htells⟩
    dsimp only at h
    split_ifs at h with hhangup hringing hbusy
    all_goals
      obtain ⟨hmethod, hanswer⟩ := Prod.mk.inj h
      obtain rfl := Option.some.inj hmethod
    · have hangup := htold (HttpRequest.isHangupForSession_iff.mp hhangup) hanswer
      exact ⟨⟨hinitiator, request, hangup, rfl⟩, request, hangup, rfl⟩
    · exact .inl ⟨hinitiator, request,
        htold (HttpRequest.isRingingForSession_iff.mp hringing) hanswer⟩
    · exact ⟨hinitiator, request, htold (HttpRequest.isBusyForSession_iff.mp hbusy) hanswer, rfl⟩
    · exact .inl ⟨request, _, hhandled, hanswer ▸ rfl, rfl⟩

theorem allowed_responder [JSONSerialization] {request : HttpRequest}
    {descriptor : Signaling.ResponderSessionDescriptor} {method : CallController.Method FailureInfo}
    {answer : HttpResponse}
    (h : CallConnectUtil_Responder.respondToServerRequest request descriptor =
      (some method, answer))
    (hsession : s'.sessionId = some descriptor.sessionId)
    (hhandled : (request, answer) ∈ s'.handled) :
    method.Allowed s'.Warranted s'.Explained := by
  unfold CallConnectUtil_Responder.respondToServerRequest at h
  split_ifs at h with hkeepAlive hhangup
  · cases (Prod.mk.inj h).1
  · obtain ⟨hmethod, rfl⟩ := Prod.mk.inj h
    obtain rfl := Option.some.inj hmethod
    exact ⟨request, ⟨hhandled, descriptor.sessionId, hsession,
      HttpRequest.isHangupForSession_iff.mp hhangup⟩, rfl⟩
  · obtain ⟨hmethod, rfl⟩ := Prod.mk.inj h
    obtain rfl := Option.some.inj hmethod
    exact .inl ⟨request, _, hhandled, rfl, rfl⟩

/-- The bad response is what the termination is about. -/
theorem explained_badResponse_initiator [JSONSerialization] {response : HttpResponse}
    {initiateRequest : HttpRequest} {t : CallTermination FailureInfo} (hinitiator : s'.isInitiator)
    (hresponse : s'.response = some response) (hbad : response.isOkResponse = false)
    (h : CallConnectUtil_Initiator.callTerminationForBadResponse response initiateRequest = .ok t) :
    s'.Explained t := by
  unfold CallConnectUtil_Initiator.callTerminationForBadResponse at h
  split_ifs at h with hnoSuchUser hserverMessage hloginFailed
  · obtain rfl := Except.ok.inj h
    exact ⟨hinitiator, response, hresponse, hnoSuchUser⟩
  · obtain ⟨message, hmessage, h⟩ := Throws.bind_eq_ok.mp h
    obtain rfl := Except.ok.inj h
    exact ⟨hinitiator, response, message, hresponse, hserverMessage, hmessage, rfl⟩
  · obtain rfl := Except.ok.inj h
    exact ⟨response, hresponse, hloginFailed⟩
  · obtain rfl := Except.ok.inj h
    exact .inr (.inl ⟨response, hresponse, hbad⟩)

theorem explained_badResponse_responder [JSONSerialization] {response : HttpResponse}
    {ringRequest : HttpRequest} (hresponder : ¬ s'.isInitiator)
    (hresponse : s'.response = some response) (hbad : response.isOkResponse = false) :
    s'.Explained
      (CallConnectUtil_Responder.callTerminationForBadResponse response ringRequest) := by
  unfold CallConnectUtil_Responder.callTerminationForBadResponse
  split_ifs with hstaleSession hloginFailed
  · exact ⟨hresponder, response, hresponse, hstaleSession⟩
  · exact ⟨response, hresponse, hloginFailed⟩
  · exact .inr (.inl ⟨response, hresponse, hbad⟩)

omit [NumberReading] in
/-- The body of such a response is not even a text. -/
theorem sessionDescriptorOfResponse_error [JSONSerialization] {response : HttpResponse}
    {initiateRequest : HttpRequest} {e : Exception}
    (h : CallConnectUtil_Initiator.callTerminationForBadResponse response initiateRequest =
      .error e) :
    sessionDescriptorOfResponse response = .error e := by
  unfold CallConnectUtil_Initiator.callTerminationForBadResponse at h
  split_ifs at h
  · cases h
  · have hmessage : response.getOptionalBodyText = .error e := by
      cases hbody : response.getOptionalBodyText with
      | ok message =>
        rw [hbody] at h
        cases h
      | error e' =>
        rw [hbody] at h
        exact congrArg Except.error (Except.error.inj h)
    unfold sessionDescriptorOfResponse
    rw [hmessage]
    rfl
  · cases h
  · cases h

/-- What is called for a response, on what is known then. -/
theorem handleResponse_spec [JSONSerialization] (response : HttpResponse)
    (hresponse : s.response = none) (hdescriptor : s.initiatorSessionDescriptor = none) :
    ∃ u : ConnectingCall C T, ∃ method, s.handleResponse response = u.call method ∧ Grows s u ∧
      u.controller = s.controller ∧ u.handled = s.handled ∧ u.response = some response ∧
      ∀ m, method = some m → m.Allowed u.Warranted u.Explained := by
  obtain ⟨role, controller, response', descriptor', handled, reports⟩ := s
  obtain rfl : response' = none := hresponse
  obtain rfl : descriptor' = none := hdescriptor
  have hgrows (descriptor : Option InitiatorSessionDescriptor) :
      Grows (C := C) (T := T) ⟨role, controller, none, none, handled, reports⟩
        ⟨role, controller, some response, descriptor, handled, reports⟩ := by
    refine ⟨rfl, ?_, ?_, List.Subset.refl _, List.Subset.refl _⟩
    · intro r hr
      cases hr
    · intro d hd
      cases hd
  have hcall (u : ConnectingCall C T)
      (hu : u = ⟨role, controller, some response, none, handled, reports⟩)
      (method : CallController.Method FailureInfo)
      (hmethod : method.Allowed u.Warranted u.Explained) :
      ∃ u' : ConnectingCall C T, ∃ method', u.call (some method) = u'.call method' ∧
        Grows ⟨role, controller, none, none, handled, reports⟩ u' ∧ u'.controller = controller ∧
        u'.handled = handled ∧ u'.response = some response ∧
        ∀ m, method' = some m → m.Allowed u'.Warranted u'.Explained := by
    subst hu
    refine ⟨_, some method, rfl, hgrows none, rfl, rfl, rfl, ?_⟩
    rintro m ⟨⟩
    exact hmethod
  unfold handleResponse
  cases role with
  | initiator initiateRequest =>
    dsimp only
    split
    case isTrue =>
      split
      case h_1 descriptor hread =>
        refine ⟨⟨.initiator initiateRequest, controller, some response, some descriptor, handled,
          reports⟩, none, rfl, hgrows _, rfl, rfl, rfl, ?_⟩
        rintro m ⟨⟩
      case h_2 e he =>
        apply hcall _ rfl
        exact Or.inr (.inr ⟨trivial, response, e, rfl, he⟩)
    case isFalse hbad =>
      have hbad := Bool.eq_false_of_not_eq_true hbad
      split
      case h_1 t ht =>
        apply hcall _ rfl
        exact explained_badResponse_initiator trivial rfl hbad ht
      case h_2 e he =>
        apply hcall _ rfl
        exact Or.inr (.inr ⟨trivial, response, e, rfl, sessionDescriptorOfResponse_error he⟩)
  | responder descriptor ringRequest =>
    dsimp only
    split
    case isTrue hok =>
      apply hcall _ rfl
      exact Or.inr ⟨not_false, response, rfl, hok⟩
    case isFalse hbad =>
      apply hcall _ rfl
      exact explained_badResponse_responder not_false rfl (Bool.eq_false_of_not_eq_true hbad)

/-- What is called for a report is explained by it. -/
theorem allowed_report [JSONSerialization]
    (hs : CallController.Allowed s.Warranted s.Explained s.controller)
    (h : Grows s s') {report : Report} (hreport : report ∈ s'.reports)
    {method : CallController.Method FailureInfo} (hmethod : s.reportMethod report = some method) :
    method.Allowed s'.Warranted s'.Explained := by
  cases report with
  | notAccepted =>
    dsimp only [reportMethod] at hmethod
    split at hmethod
    case h_1 hdenied =>
      obtain rfl := Option.some.inj hmethod
      exact h.reports (hs.denied hdenied)
    case h_2 t hfailed =>
      obtain rfl := Option.some.inj hmethod
      exact (hs.failed t hfailed).mono h
    case h_3 => cases hmethod
  | replacedByNext =>
    obtain rfl := Option.some.inj hmethod
    exact hreport
  | terminate =>
    obtain rfl := Option.some.inj hmethod
    exact .inl hreport
  | backgroundTimeExpired =>
    obtain rfl := Option.some.inj hmethod
    exact hreport
  | answerCall =>
    obtain rfl := Option.some.inj hmethod
    trivial
  | hangupOrDenyCall =>
    obtain rfl := Option.some.inj hmethod
    exact ⟨hreport, hreport⟩
  | securing =>
    obtain rfl := Option.some.inj hmethod
    exact hreport
  | handshakeFailed failureInfo relatedInfo =>
    obtain rfl := Option.some.inj hmethod
    exact ⟨failureInfo, relatedInfo, hreport⟩
  | recipientUnavailable relatedInfo =>
    obtain rfl := Option.some.inj hmethod
    exact ⟨relatedInfo, hreport⟩
  | relayUnreachable error =>
    obtain rfl := Option.some.inj hmethod
    exact .inr (.inr ⟨error, hreport⟩)
  | connected sas =>
    obtain rfl := Option.some.inj hmethod
    exact ⟨sas, hreport⟩
  | error error relatedInfo =>
    obtain rfl := Option.some.inj hmethod
    exact .inr (.inl ⟨error, relatedInfo, hreport⟩)

omit [NumberReading] in
theorem not_endsCall_of_keepAlive {request : HttpRequest} (h : request.isKeepAlive = true) :
    ¬ EndsCall (request, httpResponse200Ok) := by
  obtain ⟨hmethod, -⟩ := Bool.and_eq_true_iff.mp h
  have hget : request.method = "GET".toList := of_decide_eq_true hmethod
  rintro (hbad | hhangup | hbusy)
  · cases hbad
  · exact absurd (hget.symm.trans hhangup) (by decide)
  · exact absurd (hget.symm.trans hbusy) (by decide)

/-- A request that ends the call makes the controller terminate it. -/
theorem terminates_of_endsCall {request : HttpRequest} {answer : HttpResponse}
    {method : Option (CallController.Method FailureInfo)}
    (h : s.respondToServerRequest request = (method, answer)) (hends : EndsCall (request, answer)) :
    ∃ m, method = some m ∧ m.Terminates := by
  unfold respondToServerRequest at h
  split at h
  case h_1 =>
    unfold CallConnectUtil_Initiator.respondToServerRequest at h
    split_ifs at h with hkeepAlive
    · obtain ⟨-, rfl⟩ := Prod.mk.inj h
      exact absurd hends (not_endsCall_of_keepAlive hkeepAlive)
    · split at h
      case h_1 =>
        obtain ⟨rfl, -⟩ := Prod.mk.inj h
        exact ⟨_, rfl, trivial⟩
      case h_2 descriptor _ =>
        split_ifs at h with hhangup hringing hbusy
        · obtain ⟨rfl, -⟩ := Prod.mk.inj h
          exact ⟨_, rfl, trivial⟩
        · obtain ⟨-, rfl⟩ := Prod.mk.inj h
          have hring : request.method = SessionVerb.ring.method :=
            (HttpRequest.isRingingForSession_iff.mp hringing).method
          rcases hends with hbad | hends | hends
          · cases hbad
          · exact absurd (hring.symm.trans hends) (by decide)
          · exact absurd (hring.symm.trans hends) (by decide)
        · obtain ⟨rfl, -⟩ := Prod.mk.inj h
          exact ⟨_, rfl, trivial⟩
        · obtain ⟨rfl, -⟩ := Prod.mk.inj h
          exact ⟨_, rfl, trivial⟩
  case h_2 =>
    unfold CallConnectUtil_Responder.respondToServerRequest at h
    split_ifs at h with hkeepAlive hhangup
    · obtain ⟨-, rfl⟩ := Prod.mk.inj h
      exact absurd hends (not_endsCall_of_keepAlive hkeepAlive)
    · obtain ⟨rfl, -⟩ := Prod.mk.inj h
      exact ⟨_, rfl, trivial⟩
    · obtain ⟨rfl, -⟩ := Prod.mk.inj h
      exact ⟨_, rfl, trivial⟩

/-- What holds of a call in every state. -/
structure Sound [JSONSerialization] (s : ConnectingCall C T) : Prop where
  allowed : CallController.Allowed s.Warranted s.Explained s.controller
  awaited : s.response = none → s.initiatorSessionDescriptor = none
  begun : (∃ x ∈ s.handled, EndsCall x) → s.controller.EndingBegun

variable [JSONSerialization] [DecidableEq C] [DecidableEq T]

omit [NumberReading] [JSONSerialization] in
/-- A call of a method is a step of the controller. -/
theorem controller_step_call (s : ConnectingCall C T)
    {method : CallController.Method FailureInfo} :
    s.controller.step (.call method) = some (s.call (some method)).controller := rfl

/-- What is called must be explained by what has happened by then. -/
theorem Sound.call (h : Sound s) {u : ConnectingCall C T} (hgrows : Grows s u)
    (hcontroller : u.controller = s.controller)
    (hawaited : u.response = none → u.initiatorSessionDescriptor = none)
    {method : Option (CallController.Method FailureInfo)}
    (hallowed : ∀ m, method = some m → m.Allowed u.Warranted u.Explained)
    (hbegun : ∀ x ∈ u.handled, EndsCall x →
      x ∈ s.handled ∨ ∃ m, method = some m ∧ m.Terminates) : Sound (u.call method) := by
  have hu : CallController.Allowed u.Warranted u.Explained u.controller := by
    rw [hcontroller]
    exact h.allowed.mono (fun _ hwarranted => hwarranted.mono hgrows)
      (fun _ ht => ht.mono hgrows)
  have hlater : Grows u (u.call method) := (Grows.refl u).call method
  have hkept : s.controller.EndingBegun → (u.call method).controller.EndingBegun := by
    intro hs
    rw [← hcontroller] at hs
    cases method with
    | none => exact hs
    | some m => exact hs.step (controller_step_call u)
  constructor
  case allowed =>
    have hbefore := hu.mono (fun _ hwarranted => hwarranted.mono hlater)
      (fun _ ht => ht.mono hlater)
    cases method with
    | none => exact hbefore
    | some m =>
      apply hbefore.step trivial (e := .call m) _ (controller_step_call u)
      rintro m' ⟨⟩
      have hm := hallowed m rfl
      exact hm
  case awaited =>
    cases method with
    | none => exact hawaited
    | some m => exact hawaited
  case begun =>
    rintro ⟨x, hx, hends⟩
    have hxu : x ∈ u.handled := by
      cases method with
      | none => exact hx
      | some m => exact hx
    rcases hbegun x hxu hends with hbefore | ⟨m, rfl, hterminates⟩
    · exact hkept (h.begun ⟨x, hbefore, hends⟩)
    · exact .inr ⟨m.steps, List.mem_append_right _ (List.mem_singleton_self _),
        hterminates.isEnding⟩

theorem Sound.step (h : Sound s) {e : Event C T} (hstep : s.step e = some s') : Sound s' := by
  cases e with
  | serverRequest request =>
    let answer := s.respondToServerRequest request
    let u : ConnectingCall C T := { s with handled := s.handled ++ [(request, answer.2)] }
    obtain rfl : u.call answer.1 = s' := by
      rw [← Option.some.inj hstep]
      show u.call answer.1 = { s.call answer.1 with handled := u.handled }
      cases answer.1 <;> rfl
    have hgrows : Grows s u :=
      ⟨rfl, fun _ h => h, fun _ h => h, List.subset_append_left _ _, List.Subset.refl _⟩
    have hhandled : (request, answer.2) ∈ u.handled :=
      List.mem_append_right _ (List.mem_singleton_self _)
    apply h.call hgrows rfl h.awaited
    · intro m hm
      have hanswer : s.respondToServerRequest request = (some m, answer.2) := by
        rw [← hm]
      unfold respondToServerRequest at hanswer
      split at hanswer
      case h_1 initiateRequest hrole =>
        have hinitiator : u.isInitiator := by
          show match s.role with | .initiator _ => True | .responder _ _ => False
          rw [hrole]
          trivial
        have hsession : u.sessionId = u.initiatorSessionDescriptor.map (·.sessionId) := by
          unfold ConnectingCall.sessionId
          rw [show u.role = .initiator initiateRequest from hrole]
        exact allowed_initiator hanswer hinitiator hsession hhandled
      case h_2 descriptor ringRequest hrole =>
        have hsession : u.sessionId = some descriptor.sessionId := by
          unfold ConnectingCall.sessionId
          rw [show u.role = .responder descriptor ringRequest from hrole]
        exact allowed_responder hanswer hsession hhandled
    · intro x hx hends
      rcases List.mem_append.mp hx with hbefore | hnew
      · exact .inl hbefore
      · obtain rfl := List.mem_singleton.mp hnew
        exact .inr (terminates_of_endsCall rfl hends)
  | response response =>
    simp only [ConnectingCall.step] at hstep
    split at hstep
    case isTrue => cases hstep
    case isFalse hnone =>
      have hresponse : s.response = none := Option.not_isSome_iff_eq_none.mp hnone
      obtain ⟨u, method, heq, hgrows, hcontroller, hhandled, hsome, hallowed⟩ :=
        handleResponse_spec response hresponse (h.awaited hresponse)
      obtain rfl := Option.some.inj hstep
      rw [heq]
      apply h.call hgrows hcontroller _ hallowed
      · intro x hx _
        exact .inl (hhandled ▸ hx)
      · intro hunanswered
        rw [hsome] at hunanswered
        cases hunanswered
  | report report =>
    let u : ConnectingCall C T := { s with reports := s.reports ++ [report] }
    obtain rfl : u.call (s.reportMethod report) = s' := by
      rw [← Option.some.inj hstep]
      show u.call (s.reportMethod report) =
        { s.call (s.reportMethod report) with reports := u.reports }
      cases s.reportMethod report <;> rfl
    have hgrows : Grows s u :=
      ⟨rfl, fun _ h => h, fun _ h => h, List.Subset.refl _, List.subset_append_left _ _⟩
    have hreport : report ∈ u.reports := List.mem_append_right _ (List.mem_singleton_self _)
    apply h.call hgrows rfl h.awaited
    · intro m hm
      exact allowed_report h.allowed hgrows hreport hm
    · intro x hx _
      exact .inl hx
  | execute i =>
    obtain ⟨controller, hcontroller, rfl⟩ := Option.map_eq_some_iff.mp hstep
    refine ⟨?_, h.awaited, fun hx => (h.begun hx).step hcontroller⟩
    apply h.allowed.step trivial _ hcontroller
    rintro method ⟨⟩
  | progress e =>
    obtain ⟨controller, hcontroller, rfl⟩ := Option.map_eq_some_iff.mp hstep
    refine ⟨?_, h.awaited, fun hx => (h.begun hx).step hcontroller⟩
    apply h.allowed.step trivial _ hcontroller
    rintro method ⟨⟩

/-- Whatever happens to the call, its controller makes a step, or none. -/
theorem controller_step {e : Event C T} (hstep : s.step e = some s') :
    s'.controller = s.controller ∨ ∃ e', s.controller.step e' = some s'.controller := by
  have hcall (u : ConnectingCall C T) (method : Option (CallController.Method FailureInfo))
      (hu : u.controller = s.controller) : (u.call method).controller = s.controller ∨
        ∃ e', s.controller.step e' = some (u.call method).controller := by
    rw [← hu]
    cases method with
    | none => exact .inl rfl
    | some m => exact .inr ⟨.call m, rfl⟩
  cases e with
  | serverRequest request =>
    obtain rfl := Option.some.inj hstep
    exact hcall s _ rfl
  | report report =>
    obtain rfl := Option.some.inj hstep
    exact hcall s _ rfl
  | response response =>
    simp only [ConnectingCall.step] at hstep
    split at hstep
    case isTrue => cases hstep
    case isFalse =>
      obtain rfl := Option.some.inj hstep
      unfold handleResponse
      dsimp only
      split
      · split
        · split
          · exact .inl rfl
          · exact hcall _ _ rfl
        · split
          · exact hcall _ _ rfl
          · exact hcall _ _ rfl
      · split
        · exact hcall _ _ rfl
        · exact hcall _ _ rfl
  | execute i =>
    obtain ⟨controller, hcontroller, rfl⟩ := Option.map_eq_some_iff.mp hstep
    exact .inr ⟨.execute i, hcontroller⟩
  | progress e =>
    obtain ⟨controller, hcontroller, rfl⟩ := Option.map_eq_some_iff.mp hstep
    exact .inr ⟨.progress e, hcontroller⟩

theorem sound_of_run {role : CallRole} {canceller : T}
    {tr : History (ConnectingCall C T) (Event C T)} (h : (machine role canceller).Run tr) :
    Sound ((machine role canceller).last tr) := by
  have hinit : Sound (machine (C := C) role canceller).init := by
    refine ⟨CallController.allowed_init canceller, fun _ => rfl, ?_⟩
    rintro ⟨x, hx, _⟩
    cases hx
  exact h.state_invariant hinit fun _ _ _ hs hstep => hs.step hstep

theorem controller_of_run {role : CallRole} {canceller : T}
    {tr : History (ConnectingCall C T) (Event C T)} (h : (machine role canceller).Run tr) :
    ∃ tr', (CallController.machine canceller).Run tr' ∧
      (CallController.machine canceller).last tr' = ((machine role canceller).last tr).controller :=
  h.project ConnectingCall.controller rfl fun _ _ _ hstep => controller_step hstep

/-- What a call is shown to be at, and what it is said to have ended with, has its reason, and what
the server says to end it does. -/
structure Accounted (s : ConnectingCall C T) : Prop where
  progress : ∀ callback, ∀ x ∈ s.controller.progress.seen callback, s.Warranted x.value.type
  termination : ∀ t, s.controller.termination = some t → s.Explained t
  /-- Once all calls of methods have returned. -/
  ended : (∃ x ∈ s.handled, EndsCall x) → (∀ p ∈ s.controller.inProgress, p = []) →
    s.controller.Over

/-- In whatever order the server, the user, the connection and other threads come: a phone rings, a
call is secured or ends for a reason only that has been given, and for the session of the call. -/
theorem accounted_of_run {role : CallRole} {canceller : T}
    {tr : History (ConnectingCall C T) (Event C T)} (h : (machine role canceller).Run tr) :
    Accounted ((machine role canceller).last tr) := by
  have hsound := sound_of_run h
  obtain ⟨tr', hrun, hlast⟩ := controller_of_run h
  obtain ⟨terminated, hsteady⟩ := CallController.steady_of_run hrun
  have hserial := CallController.serial_of_run hrun
  have hdutiful := CallController.dutiful_of_run hrun
  rw [hlast] at hsteady hserial hdutiful
  constructor
  case progress =>
    intro callback x hx
    have hseen := CallController.performed_of_keeps trivial hsound.allowed.submitted
    exact hseen.2 callback x ((hserial.seen_prefix callback).subset hx)
  case termination => exact hsound.allowed.termination
  case ended =>
    intro hends hreturned
    exact CallController.over_of_returned hsteady hdutiful hserial (hsound.begun hends) hreturned

end

section Sample
attribute [local instance] signedDigitReading lawful_signedDigitReading FlatJson.jsonSerialization

def sampleRequest (method location : String) : HttpRequest :=
  .httpRequestUnauthenticatedWithMethod method.toList location.toList none

/-- The descriptor of session 5. -/
def sampleResponse : HttpResponse :=
  httpResponse200OkWithOptionalBody (some (sampleJson "6".toList))

/-- The loop of the progress runs an advance, with one watcher. -/
def advanceLoop : List (Event ℕ ℕ) :=
  [.progress (.runAction 0), .progress (.adjustmentReturns 0), .progress (.callNext 0 1),
    .progress (.callbackReturns 0), .progress (.tryDequeue 0)]

/-- The other side rings, and does not want to take the call. -/
def rejectedCall : List (Event ℕ ℕ) :=
  [.report .answerCall, .execute 0, .progress (.watchLatestValue 1 none), .progress (.runAction 0),
    .progress (.callbackReturns 0), .progress (.tryDequeue 0), .response sampleResponse,
    .serverRequest (sampleRequest "GET" "/keepalive"),
    .serverRequest (sampleRequest "RING" "/session/5"), .execute 1] ++ advanceLoop ++
  [.serverRequest (sampleRequest "DELETE" "/session/5"), .execute 2, .execute 2, .execute 2] ++
    advanceLoop ++ [.execute 2, .execute 2, .execute 2, .execute 2, .progress (.runAction 0),
    .progress (.tryDequeue 0)]

theorem accounted_rejectedCall : ∃ tr,
    (machine (.initiator (sampleRequest "GET" "/session/1/+19025555555")) 0).exec rejectedCall =
      some tr ∧
    let s := (machine (.initiator (sampleRequest "GET" "/session/1/+19025555555")) 0).last tr
    (s.controller.progress.seen 1).map (·.value.type) = [.connecting, .ringing, .terminated] ∧
    s.controller.termination.map (·.type) = some .rejectedRemote ∧
    (∀ p ∈ s.controller.inProgress, p = []) ∧ Accounted s := by
  have hexec : ((machine (.initiator (sampleRequest "GET" "/session/1/+19025555555")) 0).exec
      rejectedCall).map (fun tr =>
        let s := (machine (.initiator (sampleRequest "GET" "/session/1/+19025555555")) 0).last tr
        ((s.controller.progress.seen 1).map (·.value.type),
          s.controller.termination.map (·.type), s.controller.inProgress.all List.isEmpty)) =
      some ([.connecting, .ringing, .terminated], some .rejectedRemote, true) := by
    decide +kernel
  obtain ⟨tr, htr, hresult⟩ := Option.map_eq_some_iff.mp hexec
  simp only [Prod.mk.injEq] at hresult
  obtain ⟨hseen, htermination, hreturned⟩ := hresult
  have hempty : ∀ p ∈ ((machine (.initiator (sampleRequest "GET" "/session/1/+19025555555"))
      0).last tr).controller.inProgress, p = [] := fun p hp =>
    List.isEmpty_iff.mp (List.all_eq_true.mp hreturned p hp)
  exact ⟨tr, htr, hseen, htermination, hempty, accounted_of_run (Machine.run_of_exec htr)⟩

end Sample
end ConnectingCall
end SignalIOS.Phone
