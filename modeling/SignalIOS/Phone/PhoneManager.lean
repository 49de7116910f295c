import SignalIOS.Phone.CallController

/-! The manager of the calls of RedPhone, with those who notify it, ask it, and end its calls. -/
namespace SignalIOS.Phone
open SignalIOS.Lib

/-- What the manager reads of the descriptor of a session that it is notified of. -/
structure NotifiedSession where
  sessionId : Int64
  relayServerName : String
  initiatorNumber : String
  deriving DecidableEq, Repr

/-- A call controller, as far as the manager knows it. -/
structure RedphoneCall where
  initiatedLocally : Bool
  remoteNumber : String
  /-- What an incoming call responds to. -/
  session : Option NotifiedSession
  futureTermination : Option CallTerminationType := none
  deriving DecidableEq, Repr

/-- The first termination is the one that stays. -/
def RedphoneCall.terminateWithReason (c : RedphoneCall) (reason : CallTerminationType) :
    RedphoneCall :=
  { c with futureTermination := c.futureTermination.or (some reason) }

/-- What is done when the user lets the application record audio. -/
inductive PermissionRequest
  | callToRemoteNumber (remoteNumber : String)
  | respondToCall (session : NotifiedSession)
  deriving DecidableEq, Repr

structure PhoneManager where
  lastIncomingSessionId : Int64 := 0
  curCallController : Option RedphoneCall := none
  /-- The requests that the user has not answered. -/
  permissionRequests : List PermissionRequest := []
  /-- There is a call in the call service of the environment. -/
  hasOngoingWebRTCCall : Bool := false
  missedCallsDueToBusy : List NotifiedSession := []
  /-- The sessions for which the server has been told that the phone is too busy. -/
  busySignals : List NotifiedSession := []
  replacedCalls : List RedphoneCall := []
  deriving DecidableEq, Repr

namespace PhoneManager

def hasOngoingRedphoneCall (s : PhoneManager) : Bool :=
  match s.curCallController with
  | none => false
  | some c => c.futureTermination.isNone

def hasOngoingCall (s : PhoneManager) : Bool :=
  s.hasOngoingRedphoneCall || s.hasOngoingWebRTCCall

def cancelExistingCallAndInitNewCallWork (s : PhoneManager) (initiatedLocally : Bool)
    (remoteNumber : String) (session : Option NotifiedSession) : PhoneManager :=
  let old := s.curCallController.map (·.terminateWithReason .replacedByNext)
  { s with
    replacedCalls := s.replacedCalls ++ old.toList
    curCallController := some { initiatedLocally, remoteNumber, session } }

def incomingCallWithSession (s : PhoneManager) (session : NotifiedSession) :
    PhoneManager :=
  let prevSession := s.lastIncomingSessionId
  let s := { s with lastIncomingSessionId := session.sessionId }
  if s.hasOngoingCall then
    if session.sessionId = prevSession then
      s -- duplicate incoming call signal
    else
      { s with
        missedCallsDueToBusy := s.missedCallsDueToBusy ++ [session]
        busySignals := s.busySignals ++ [session] }
  else
    { s with permissionRequests := s.permissionRequests ++ [.respondToCall session] }

def initiateOutgoingCallToRemoteNumber (s : PhoneManager) (remoteNumber : String) :
    PhoneManager :=
  { s with permissionRequests := s.permissionRequests ++ [.callToRemoteNumber remoteNumber] }

/-- The completion of the request `i`. -/
def permissionAnswered (s : PhoneManager) (request : PermissionRequest) (i : ℕ) (granted : Bool) :
    PhoneManager :=
  let s := { s with permissionRequests := s.permissionRequests.eraseIdx i }
  if granted then
    match request with
    | .callToRemoteNumber remoteNumber =>
      s.cancelExistingCallAndInitNewCallWork true remoteNumber none
    | .respondToCall session =>
      s.cancelExistingCallAndInitNewCallWork false session.initiatorNumber (some session)
  else s

inductive Event
  | incomingCallWithSession (session : NotifiedSession)
  | initiateOutgoingCallToRemoteNumber (remoteNumber : String)
  /-- The requests are answered in whatever order. -/
  | permissionAnswered (i : ℕ) (granted : Bool)
  /-- By the user, the remote side, an error, or the manager itself. -/
  | callTerminated (reason : CallTerminationType)
  | webRTCCallChanged (ongoing : Bool)
  deriving DecidableEq, Repr

def step (s : PhoneManager) : Event → Option PhoneManager
  | .incomingCallWithSession session => some (s.incomingCallWithSession session)
  | .initiateOutgoingCallToRemoteNumber remoteNumber =>
    some (s.initiateOutgoingCallToRemoteNumber remoteNumber)
  | .permissionAnswered i granted =>
    s.permissionRequests[i]?.map fun request => s.permissionAnswered request i granted
  | .callTerminated reason =>
    s.curCallController.map fun c =>
      { s with curCallController := some (c.terminateWithReason reason) }
  | .webRTCCallChanged ongoing => some { s with hasOngoingWebRTCCall := ongoing }

def machine : Machine PhoneManager Event where
  init := {}
  step := step

end PhoneManager
end SignalIOS.Phone
