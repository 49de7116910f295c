import SignalIOS.Phone.CallReasons
import SignalIOS.Signaling.InitiatorSessionDescriptor
import SignalIOS.Signaling.SignalUtil

/-! A call of RedPhone with its signaling server: the requests that the server makes, the response
to the request of the call, and what the rest of the application tells the controller. -/
namespace SignalIOS
open SignalIOS.Lib SignalIOS.Http

namespace Http.HttpResponse

def httpResponse200Ok : HttpResponse := httpResponse200OkWithOptionalBody none

def httpResponse500InternalServerError : HttpResponse where
  statusCode := 500
  statusText := "Internal Server Error".toList
  headers := ∅

def httpResponse501NotImplemented : HttpResponse where
  statusCode := 501
  statusText := "Not Implemented".toList
  headers := ∅

def isOkResponse (response : HttpResponse) : Bool := response.statusCode = 200

end Http.HttpResponse

namespace Phone
open Http.HttpResponse Signaling

/-- What a termination carries besides its type. -/
inductive FailureInfo
  | request (request : HttpRequest)
  | response (response : HttpResponse)
  | text (text : NSString)
  | ignoredPacketFailure (reason : String)
  | unrecognizedRequestFailure (reason : String)
  | exception (e : Exception)
  | acceptedOrDenied (accepted : Bool)
  | other

namespace CallConnectUtil_Initiator

def callTerminationForBadResponse (badResponse : HttpResponse) (initiateRequest : HttpRequest) :
    Throws (CallTermination FailureInfo) :=
  if badResponse.statusCode = 404 then
    return ⟨.noSuchUser, some (.response badResponse), some (.request initiateRequest)⟩
  else if badResponse.statusCode = 402 then do
    let message ← badResponse.getOptionalBodyText
    return ⟨.serverMessage, some (.response badResponse), message.map .text⟩
  else if badResponse.statusCode = 401 then
    return ⟨.loginFailed, some (.response badResponse), some (.request initiateRequest)⟩
  else
    return ⟨.badInteractionWithServer, some (.response badResponse),
      some (.request initiateRequest)⟩

/-- The method of the controller that is called, and the answer. -/
def respondToServerRequest [NumberReading] (request : HttpRequest)
    (futureInitiatorSessionDescriptor : Option InitiatorSessionDescriptor) :
    Option (CallController.Method FailureInfo) × HttpResponse :=
  if request.isKeepAlive then (none, httpResponse200Ok)
  else
    match futureInitiatorSessionDescriptor with
    | none => -- too soon?
      (some (.terminateWithReason ⟨.badInteractionWithServer,
        some (.ignoredPacketFailure ("Didn't receive session id from signaling server. " ++
          "Not able to understand request.")), some (.request request)⟩),
        httpResponse500InternalServerError)
    | some descriptor =>
      if request.isHangupForSession descriptor.sessionId then
        (some (.terminateWithRejectionOrRemoteHangup none (some (.request request))),
          httpResponse200Ok)
      else if request.isRingingForSession descriptor.sessionId then
        (some (.advanceCallProgressTo .ringing), httpResponse200Ok)
      else if request.isBusyForSession descriptor.sessionId then
        (some (.terminateWithReason ⟨.responderIsBusy, none, some (.request request)⟩),
          httpResponse200Ok)
      else
        (some (.terminateWithReason ⟨.badInteractionWithServer,
          some (.unrecognizedRequestFailure "Didn't understand signaling server."),
          some (.request request)⟩), httpResponse501NotImplemented)

end CallConnectUtil_Initiator

namespace CallConnectUtil_Responder

def callTerminationForBadResponse (badResponse : HttpResponse) (ringRequest : HttpRequest) :
    CallTermination FailureInfo :=
  if badResponse.statusCode = 404 then
    ⟨.staleSession, some (.response badResponse), some (.request ringRequest)⟩
  else if badResponse.statusCode = 401 then
    ⟨.loginFailed, some (.response badResponse), some (.request ringRequest)⟩
  else
    ⟨.badInteractionWithServer, some (.response badResponse), some (.request ringRequest)⟩

def respondToServerRequest [NumberReading] (request : HttpRequest)
    (responderSessionDescriptor : Signaling.ResponderSessionDescriptor) :
    Option (CallController.Method FailureInfo) × HttpResponse :=
  if request.isKeepAlive then (none, httpResponse200Ok)
  else if request.isHangupForSession responderSessionDescriptor.sessionId then
    (some (.terminateWithReason ⟨.hangupRemote, none, some (.request request)⟩), httpResponse200Ok)
  else
    (some (.terminateWithReason ⟨.badInteractionWithServer,
      some (.unrecognizedRequestFailure "Didn't understand signaling server."),
      some (.request request)⟩), httpResponse501NotImplemented)

end CallConnectUtil_Responder

/-- Who a call is made by, with the request that it makes of its server. -/
inductive CallRole
  | initiator (initiateRequest : HttpRequest)
  | responder (sessionDescriptor : Signaling.ResponderSessionDescriptor) (ringRequest : HttpRequest)

/-- What the rest of the application tells the controller: the manager of the calls, the user, the
connection to the relay, the handshake, and whoever has an error that ends the call. -/
inductive Report
  | replacedByNext
  | terminate
  | backgroundTimeExpired
  | answerCall
  | hangupOrDenyCall
  | securing
  | handshakeFailed (failureInfo relatedInfo : Option FailureInfo)
  | recipientUnavailable (relatedInfo : Option FailureInfo)
  | relayUnreachable (error : FailureInfo)
  | connected (shortAuthenticationString : String)
  /-- An error that is no termination. -/
  | error (error : FailureInfo) (relatedInfo : Option FailureInfo)
  /-- `interactiveCallAccepted` has failed. -/
  | notAccepted

structure ConnectingCall (C T : Type*) where
  role : CallRole
  controller : CallController FailureInfo C T
  /-- What the server has answered to the request of the role. -/
  response : Option HttpResponse := none
  /-- The result of the eventual descriptor, which only an initiator waits for. -/
  initiatorSessionDescriptor : Option InitiatorSessionDescriptor := none
  /-- The requests of the server, with their answers. -/
  handled : List (HttpRequest × HttpResponse) := []
  reports : List Report := []

namespace ConnectingCall
variable {C T : Type*}

/-- A method of the controller is called, or none is. -/
def call (s : ConnectingCall C T) (method : Option (CallController.Method FailureInfo)) :
    ConnectingCall C T :=
  match method with
  | none => s
  | some method =>
    { s with controller :=
      { s.controller with inProgress := s.controller.inProgress ++ [method.steps] } }

def respondToServerRequest [NumberReading] (s : ConnectingCall C T) (request : HttpRequest) :
    Option (CallController.Method FailureInfo) × HttpResponse :=
  match s.role with
  | .initiator _ =>
    CallConnectUtil_Initiator.respondToServerRequest request s.initiatorSessionDescriptor
  | .responder descriptor _ => CallConnectUtil_Responder.respondToServerRequest request descriptor

/-- The error handler of the controller, for an exception. -/
def exceptionMethod (e : Exception) : CallController.Method FailureInfo :=
  .terminateWithReason ⟨.uncategorizedFailure, some (.exception e), none⟩

def sessionDescriptorOfResponse [JSONSerialization] (response : HttpResponse) :
    Throws InitiatorSessionDescriptor := do
  initiatorSessionDescriptorFromJson (← response.getOptionalBodyText)

def handleResponse [JSONSerialization] (s : ConnectingCall C T) (response : HttpResponse) :
    ConnectingCall C T :=
  let s := { s with response := some response }
  match s.role with
  | .initiator initiateRequest =>
    if response.isOkResponse then
      match sessionDescriptorOfResponse response with
      | .ok descriptor => { s with initiatorSessionDescriptor := some descriptor }
      | .error e => s.call (some (exceptionMethod e))
    else
      match CallConnectUtil_Initiator.callTerminationForBadResponse response initiateRequest with
      | .ok t => s.call (some (.terminateWithReason t))
      | .error e => s.call (some (exceptionMethod e))
  | .responder _ ringRequest =>
    if response.isOkResponse then s.call (some (.advanceCallProgressTo .ringing))
    else
      s.call (some (.terminateWithReason
        (CallConnectUtil_Responder.callTerminationForBadResponse response ringRequest)))

/-- What is called for a report. Whoever waits for the user to accept the call passes on that the user
has denied it, or the termination that it has met with. -/
def reportMethod (s : ConnectingCall C T) : Report → Option (CallController.Method FailureInfo)
  | .replacedByNext => some (.terminateWithReason ⟨.replacedByNext, none, none⟩)
  | .terminate => some (.terminateWithReason
      ⟨.uncategorizedFailure, some (.text "PhoneManager terminated".toList), none⟩)
  | .backgroundTimeExpired => some .backgroundTimeExpired
  | .answerCall => some .acceptCall
  | .hangupOrDenyCall => some .hangupOrDenyCall
  | .securing => some (.advanceCallProgressTo .securing)
  | .handshakeFailed failureInfo relatedInfo =>
    some (.terminateWithReason ⟨.handshakeFailed, failureInfo, relatedInfo⟩)
  | .recipientUnavailable relatedInfo =>
    some (.terminateWithReason ⟨.recipientUnavailable, none, relatedInfo⟩)
  | .relayUnreachable error => some (.terminateWithReason ⟨.badInteractionWithServer, some error,
      some (.text "Timed out on all attempts to contact relay.".toList)⟩)
  | .connected sas =>
    some (.advanceCallProgressToConversingWithShortAuthenticationString sas)
  | .error error relatedInfo =>
    some (.terminateWithReason ⟨.uncategorizedFailure, some error, relatedInfo⟩)
  | .notAccepted =>
    match s.controller.interactiveCallAcceptedOrDenied with
    | some (.ok false) => some (.terminateWithReason
        ⟨.rejectedLocal, some (.acceptedOrDenied false), none⟩)
    | some (.error t) => some (.terminateWithReason t)
    | _ => none

inductive Event (C T : Type*)
  /-- A request of the server, to the handler. -/
  | serverRequest (request : HttpRequest)
  | response (response : HttpResponse)
  | report (report : Report)
  /-- The next step of a call that is in progress. -/
  | execute (i : ℕ)
  | progress (e : ObservableValue.Event CallProgress C T)

variable [NumberReading] [JSONSerialization] [DecidableEq C] [DecidableEq T]

def step (s : ConnectingCall C T) : Event C T → Option (ConnectingCall C T)
  | .serverRequest request =>
    let answer := s.respondToServerRequest request
    some { s.call answer.1 with handled := s.handled ++ [(request, answer.2)] }
  | .response response => if s.response.isSome then none else some (s.handleResponse response)
  | .report report => some { s.call (s.reportMethod report) with reports := s.reports ++ [report] }
  | .execute i => (s.controller.step (.execute i)).map fun controller => { s with controller }
  | .progress e => (s.controller.step (.progress e)).map fun controller => { s with controller }

/-- A call that begins. -/
def machine (role : CallRole) (canceller : T) : Machine (ConnectingCall C T) (Event C T) where
  init := { role, controller := (CallController.machine canceller).init }
  step := step

end ConnectingCall
end Phone
end SignalIOS
