import SignalIOS.Call.CallService
import SignalIOS.Lib.Runs

/-! The main-queue turns of the call service: the messages, user actions, client events,
promise continuations and notifications that can reach it, and the machine they drive. -/
namespace SignalIOS.Call
open SignalIOS.Lib

/-- What ends the process: an unwrapped `nil`, or an integer conversion out of range. -/
inductive Fault
  | unwrappedNil
  | integerOverflow
  deriving DecidableEq, Repr

inductive ClientEvent
  | iceConnected
  | iceFailed
  | addedLocalIceCandidate (candidate : RTCIceCandidate)
  | received (message : OWSWebRTCProtosData)
  | didUpdateLocal (videoTrack : Option RTCVideoTrack)
  | didUpdateRemote (videoTrack : Option RTCVideoTrack)
  deriving DecidableEq

/-- What the user does, through the call UI. `newOutgoingCall` is the first half of
`startOutgoingCall(handle:)`; CallKit may take its time before `handleOutgoingCall`. -/
inductive UserAction
  | newOutgoingCall (handle : String) (signalingId : UInt64)
  | handleOutgoingCall (call : CallRef)
  | handleAnswerCall (call : CallRef)
  | handleAnswerCallWithLocalId (localId : CallRef)
  | handleDeclineCall (call : CallRef)
  | handleDeclineCallWithLocalId (localId : CallRef)
  | handleLocalHungupCall (call : CallRef)
  | setIsMuted (isMuted : Bool)
  | setHasLocalVideo (isAuthorized hasLocalVideo : Bool)
  | handleCallKitStartVideo (isAuthorized : Bool)
  | createCallUIAdapter
  | providerDidReset
  deriving DecidableEq

/-- The continuations of the promises started on behalf of a call. PromiseKit keeps the errors of a
cancellation from `recover` and `catch` (`allErrorsExceptCancellation`). Here they run for every
error, so that the machine has more runs than the code. -/
inductive Continuation
  | iceServers (result : Except NSError TurnServerInfo)
  | offer (sessionDescription : String)
  | localDescription
  | negotiated (sessionDescription : String)
  | sent
  | rejected (error : NSError)
  | connectingTimeout
  | caught
  /-- The last, logging part of the chain, with the `always` of an incoming call. -/
  | finished
  | remoteDescription
  | remoteDescriptionRejected (error : NSError)
  /-- The end of a hang-up, busy or ICE update send, which only logs. -/
  | messageSettled
  | backgroundTaskExpired
  | backgroundTimeout

inductive Event
  | receivedOffer (id : UInt64) (sessionDescription callerId : String)
      (hasOngoingRedphoneCall : Bool)
  | received (message : CallMessage) (callerId : String)
  | client (client : ClientRef) (event : ClientEvent)
  | user (action : UserAction)
  | continuation (call : CallRef) (continuation : Continuation)
  | didEnterBackground
  | didBecomeActive

/-- `Int32(lineIndex)`, which traps above `Int32.max`. -/
def int32FromUInt32 (lineIndex : UInt32) : Except Fault Int32 :=
  if lineIndex.toNat ≤ 0x7FFFFFFF then .ok lineIndex.toInt32 else .error .integerOverflow

namespace State

/-- `WebRTCCallMessageHandler`. Hang-up and busy messages are passed on without their id. -/
def receivedMessage (s : State) (message : CallMessage) (callerId : String) :
    Except Fault State :=
  match message with
  | .answer id sessionDescription => .ok (s.handleReceivedAnswer ⟨callerId⟩ id sessionDescription)
  | .iceUpdate id sdp sdpMlineIndex sdpMid =>
    (int32FromUInt32 sdpMlineIndex).map fun lineIndex =>
      s.handleRemoteAddedIceCandidate ⟨callerId⟩ id sdp lineIndex sdpMid
  | .hangup _ => .ok (s.handleRemoteHangup ⟨callerId⟩)
  | .busy _ => .ok (s.handleRemoteBusy ⟨callerId⟩)

def clientEvent (s : State) (client : ClientRef) : ClientEvent → State
  | .iceConnected => s.peerConnectionClientIceConnected client
  | .iceFailed => s.peerConnectionClientIceFailed client
  | .addedLocalIceCandidate candidate =>
    s.peerConnectionClientAddedLocalIceCandidate client candidate
  | .received message => s.peerConnectionClientReceived client message
  | .didUpdateLocal videoTrack => s.peerConnectionClientDidUpdateLocal client videoTrack
  | .didUpdateRemote videoTrack => s.peerConnectionClientDidUpdateRemote client videoTrack

def newOutgoingCall (s : State) (handle : String) (signalingId : UInt64) : State :=
  { s with
    calls := s.calls.alloc (.outgoingCall handle signalingId)
    unplaced := s.calls.next :: s.unplaced }

/-- `none` where the call UI does not act so: it passes each new call on once. -/
def userAction (s : State) : UserAction → Option State
  | .newOutgoingCall handle signalingId => some (s.newOutgoingCall handle signalingId)
  | .handleOutgoingCall call =>
    if call ∈ s.unplaced then
      some ({ s with unplaced := s.unplaced.erase call }.handleOutgoingCall call)
    else none
  | .handleAnswerCall call => some (s.handleAnswerCall call)
  | .handleAnswerCallWithLocalId localId => some (s.handleAnswerCallWithLocalId localId)
  | .handleDeclineCall call => some (s.handleDeclineCall call)
  | .handleDeclineCallWithLocalId localId => some (s.handleDeclineCallWithLocalId localId)
  | .handleLocalHungupCall call => some (s.handleLocalHungupCall call)
  | .setIsMuted isMuted => some (s.setIsMuted isMuted)
  | .setHasLocalVideo isAuthorized hasLocalVideo =>
    some (s.setHasLocalVideo isAuthorized hasLocalVideo)
  | .handleCallKitStartVideo isAuthorized => some (s.handleCallKitStartVideo isAuthorized)
  | .createCallUIAdapter => some s.createCallUIAdapter
  | .providerDidReset => some (s.handleFailedCall .providerReset)

def connectingTimeoutError (s : State) (call : CallRef) : CallError :=
  match (s.calls.get call).direction with
  | .outgoing => .timeout "timed out waiting to receive call answer" call
  | .incoming => .timeout "timed out waiting for call to connect" call

def endBackgroundTask (s : State) (call : CallRef) : State :=
  if s.backgroundTask call = .running then s.setBackgroundTask call .ended else s

/-- `none` where the promise is not there to be settled. -/
def continuation (s : State) (call : CallRef) : Continuation → Option (Except Fault State)
  | .iceServers result =>
    match s.setUp call with
    | .iceServers none => some (.ok (s.outgoingIceServers call (getIceServers result)))
    | .iceServers (some callerSessionDescription) =>
      some (.ok (s.incomingIceServers call (getIceServers result) callerSessionDescription))
    | _ => none
  | .offer sessionDescription =>
    match s.setUp call with
    | .offer =>
      match s.outgoingOffer call sessionDescription with
      | some s' => some (.ok s')
      | none => some (.error .unwrappedNil)
    | _ => none
  | .localDescription =>
    match s.setUp call with
    | .localDescription sessionDescription =>
      some (.ok (s.outgoingLocalDescription call sessionDescription))
    | _ => none
  | .negotiated sessionDescription =>
    if s.setUp call = .negotiation then some (.ok (s.incomingNegotiated call sessionDescription))
    else none
  | .sent =>
    if s.setUp call = .sending then
      match (s.calls.get call).direction with
      | .outgoing => some (.ok (s.raceConnectedPromise call))
      | .incoming => some (.ok (s.incomingSent call))
    else none
  | .rejected error =>
    match s.setUp call with
    | .offer | .localDescription _ | .negotiation | .sending =>
      some (.ok (s.setSetUp call (.failed (.nsError error))))
    | _ => none
  | .connectingTimeout =>
    if s.setUp call = .race then
      some (.ok (s.setSetUp call (.failed (.callError (s.connectingTimeoutError call)))))
    else none
  | .caught =>
    match s.setUp call with
    | .failed error =>
      match (s.calls.get call).direction with
      | .outgoing => some (.ok (s.outgoingCatch call error))
      | .incoming => some (.ok (s.incomingCatch call error))
    | _ => none
  | .finished =>
    if s.setUp call = .connected ∨ s.setUp call = .caught then
      some (.ok ((s.setSetUp call .finished).endBackgroundTask call))
    else none
  | .remoteDescription =>
    if call ∈ s.remoteDescriptions then
      some (.ok { s with remoteDescriptions := s.remoteDescriptions.erase call })
    else none
  | .remoteDescriptionRejected error =>
    if call ∈ s.remoteDescriptions then
      some (.ok ({ s with remoteDescriptions := s.remoteDescriptions.erase call }.handleFailedCall
        (.externalError error)))
    else none
  | .messageSettled => some (.ok s)
  | .backgroundTaskExpired =>
    if s.backgroundTask call = .running then some (.ok (s.setBackgroundTask call .expired))
    else none
  | .backgroundTimeout =>
    if s.backgroundTask call = .expired then
      some (.ok ((s.setBackgroundTask call .ended).backgroundTimeout call))
    else none

/-- One turn of the main queue; `none` where the event cannot occur. -/
def turn (s : State) : Event → Option (Except Fault State)
  | .receivedOffer id sessionDescription callerId hasOngoingRedphoneCall =>
    some (.ok (s.handleReceivedOffer ⟨callerId⟩ id sessionDescription hasOngoingRedphoneCall))
  | .received message callerId => some (s.receivedMessage message callerId)
  | .client client event => some (.ok (s.clientEvent client event))
  | .user action => (s.userAction action).map .ok
  | .continuation call continuation => s.continuation call continuation
  | .didEnterBackground => some (.ok s.didEnterBackground)
  | .didBecomeActive => some (.ok s.didBecomeActive)

/-- The state after a turn, if the event can occur and the turn does not trap. -/
def next (s : State) (e : Event) : Option State := (s.turn e).bind Except.toOption

end State

def callMachine : Machine State Event := ⟨.initial, State.next⟩

end SignalIOS.Call
