import SignalIOS.Lib.Heap

/-! The data of WebRTC calls: `SignalCall`, `TSCall`, `PeerConnectionClient`, the messages
exchanged about calls, and the state of `CallService` with the objects it refers to. -/
namespace SignalIOS.Call
open SignalIOS.Lib

/-- A `SignalCall` object. Its `localId` is a fresh UUID, so the reference stands for both. -/
abbrev CallRef := ℕ

/-- A `PeerConnectionClient` object. -/
abbrev ClientRef := ℕ

/-- A `TSCall` record. -/
abbrev RecordRef := ℕ

/-- An `RTCVideoTrack` object. -/
abbrev RTCVideoTrack := ℕ

inductive CallState
  | idle | dialing | answering | remoteRinging | localRinging | connected
  | localFailure | localHangup | remoteHangup | remoteBusy
  deriving DecidableEq, Repr

/-- The states that `CallState` marks as terminal. -/
def CallState.isTerminal : CallState → Bool
  | .localFailure | .localHangup | .remoteHangup | .remoteBusy => true
  | _ => false

inductive CallDirection
  | outgoing | incoming
  deriving DecidableEq, Repr

structure NSError where
  domain : String
  code : Int
  deriving DecidableEq, Repr

inductive CallError
  | providerReset
  | assertionError (description : String)
  | disconnected
  | externalError (underlyingError : NSError)
  | timeout (description : String) (call : CallRef)
  deriving DecidableEq, Repr

/-- The errors a promise of the call code is rejected with. -/
inductive Error
  | callError (error : CallError)
  | nsError (error : NSError)
  deriving DecidableEq, Repr

/-- `error as? CallError`, and otherwise `CallError.externalError(underlyingError: error)`. -/
def Error.asCallError : Error → CallError
  | .callError e => e
  | .nsError e => .externalError e

/-- A thread with one contact; `TSContactThread.getOrCreateThread(contactId:)` is `mk`. -/
structure TSContactThread where
  contactIdentifier : String
  deriving DecidableEq, Repr

/-- SignalServiceKit names a contact thread by the prefix `c` and the contact. -/
def TSContactThread.uniqueId (thread : TSContactThread) : String :=
  "c" ++ thread.contactIdentifier

instance : ToString TSContactThread := ⟨TSContactThread.uniqueId⟩

inductive RPRecentCallType
  | incoming | outgoing | missed | outgoingIncomplete | incomingIncomplete
  deriving DecidableEq, Repr

/-- A call record of the message database. `forCall` is the call it was made for. -/
structure TSCall where
  callNumber : String
  callType : RPRecentCallType
  thread : TSContactThread
  saved : Bool
  forCall : CallRef
  deriving DecidableEq, Repr

/-- The observers of a call whose callbacks reach the state modelled here. -/
inductive CallObserver
  | callService
  deriving DecidableEq, Repr

structure SignalCall where
  direction : CallDirection
  signalingId : UInt64
  state : CallState
  remotePhoneNumber : String
  observers : List CallObserver := []
  callRecord : Option RecordRef := none
  hasLocalVideo : Bool := false
  isMuted : Bool := false
  error : Option CallError := none
  deriving DecidableEq, Repr

/-- `signalingId` is the random number `newCallSignalingId()` returns. -/
def SignalCall.outgoingCall (remotePhoneNumber : String) (signalingId : UInt64) : SignalCall :=
  { direction := .outgoing, signalingId, state := .dialing, remotePhoneNumber }

def SignalCall.incomingCall (remotePhoneNumber : String) (signalingId : UInt64) : SignalCall :=
  { direction := .incoming, signalingId, state := .answering, remotePhoneNumber }

structure RTCIceServer where
  urlStrings : List String
  username : Option String := none
  credential : Option String := none
  deriving DecidableEq, Repr

/-- A client of one peer connection, with the last `setAudioEnabled` and
`setLocalVideoEnabled` requests made to it (both tracks start disabled). -/
structure PeerConnectionClient where
  iceServers : List RTCIceServer
  callDirection : CallDirection
  audioEnabled : Option Bool := none
  localVideoEnabled : Option Bool := none
  terminated : Bool := false
  deriving DecidableEq, Repr

structure RTCIceCandidate where
  sdp : String
  sdpMLineIndex : Int32
  sdpMid : String
  deriving DecidableEq

structure OWSCallIceUpdateMessage where
  callId : UInt64
  sdp : String
  sdpMLineIndex : Int32
  sdpMid : String
  deriving DecidableEq

/-- What an `OWSOutgoingCallMessage` carries. -/
inductive CallMessageBody
  | offerMessage (callId : UInt64) (sessionDescription : String)
  | answerMessage (callId : UInt64) (sessionDescription : String)
  | iceUpdateMessages (messages : List OWSCallIceUpdateMessage)
  | hangupMessage (callId : UInt64)
  | busyMessage (callId : UInt64)
  deriving DecidableEq

structure OWSOutgoingCallMessage where
  thread : TSContactThread
  body : CallMessageBody
  deriving DecidableEq

/-- A message this client sends on the data channel. -/
inductive DataChannelMessage
  | forConnected (callId : UInt64)
  | forHangup (callId : UInt64)
  | forVideoStreamingStatus (callId : UInt64) (enabled : Bool)
  deriving DecidableEq, Repr

/-- A received data channel message: any of the three parts may be present, and an absent
`id` or `enabled` reads as its protobuf default. -/
structure OWSWebRTCProtosData where
  connected : Option UInt64 := none
  hangup : Option UInt64 := none
  videoStreamingStatus : Option Bool := none
  deriving DecidableEq, Repr

/-- A received call message about an existing call. -/
inductive CallMessage
  | answer (id : UInt64) (sessionDescription : String)
  | iceUpdate (id : UInt64) (sdp : String) (sdpMlineIndex : UInt32) (sdpMid : String)
  | hangup (id : UInt64)
  | busy (id : UInt64)
  deriving DecidableEq

def CallMessage.id : CallMessage → UInt64
  | .answer id _ | .iceUpdate id _ _ _ | .hangup id | .busy id => id

structure TurnServerInfo where
  password : String
  username : String
  urls : List String
  deriving DecidableEq

/-- What a call's set-up promise chain waits for. The incoming chain goes through
`iceServers`, `negotiation`, `sending` and `race`; the outgoing one through `iceServers`,
`offer`, `localDescription`, `sending` and `race`. -/
inductive SetUp
  | notStarted
  /-- An incoming chain has captured the caller's session description. -/
  | iceServers (callerSessionDescription : Option String)
  | offer
  | localDescription (sessionDescription : String)
  | negotiation
  | sending
  /-- The connected promise and its timeout, both pending. -/
  | race
  /-- The connected promise won the race. -/
  | connected
  /-- The chain was rejected and its `catch` has not run yet. -/
  | failed (error : Error)
  | caught
  | finished
  deriving DecidableEq, Repr

/-- The background task of an incoming call. `expired` is a block waiting on the main queue. -/
inductive BackgroundTask
  | none | running | expired | ended
  deriving DecidableEq, Repr

/-- What the handlers ask of the message sender, the peer connection and the call UI. -/
inductive Effect
  | sendCallMessage (message : OWSOutgoingCallMessage)
  | sendDataChannelMessage (client : ClientRef) (message : DataChannelMessage)
  | addIceCandidate (client : ClientRef) (candidate : RTCIceCandidate)
  | setRemoteSessionDescription (client : ClientRef) (sdp : String)
  | setLocalSessionDescription (client : ClientRef) (sdp : String)
  | negotiateSessionDescription (client : ClientRef) (remoteDescription : String)
  | reportIncomingCall (call : CallRef) (thread : TSContactThread)
  | reportMissedCall (call : CallRef)
  | recipientAcceptedCall (call : CallRef)
  | remoteDidHangupCall (call : CallRef)
  | remoteBusy (call : CallRef)
  | failCall (call : CallRef) (error : CallError)
  deriving DecidableEq

/-- The instance variables of `CallService`. `fulfillCallConnectedPromise` is named by the call
whose set-up chain made the promise. -/
structure CallService where
  peerConnectionClient : Option ClientRef := none
  thread : Option TSContactThread := none
  call : Option CallRef := none
  sendIceUpdatesImmediately : Bool := true
  pendingIceUpdateMessages : List OWSCallIceUpdateMessage := []
  incomingCallPromise : Option CallRef := none
  fulfillCallConnectedPromise : Option CallRef := none
  localVideoTrack : Option RTCVideoTrack := none
  remoteVideoTrack : Option RTCVideoTrack := none
  isRemoteVideoEnabled : Bool := false

/-- The call service with the objects and promises around it. -/
structure State extends CallService where
  calls : Heap SignalCall
  clients : Heap PeerConnectionClient
  records : Heap TSCall
  /-- `UIApplication.shared.applicationState == .background`, as last notified. -/
  inBackground : Bool
  setUp : CallRef → SetUp
  /-- The calls for which a `setRemoteSessionDescription` promise of an answer is pending. -/
  remoteDescriptions : List CallRef
  backgroundTask : CallRef → BackgroundTask
  /-- The outgoing calls the call UI has made and not yet passed to `handleOutgoingCall`. -/
  unplaced : List CallRef
  log : List Effect

namespace State

def initial : State where
  calls := .empty (.outgoingCall "" 0)
  clients := .empty { iceServers := [], callDirection := .outgoing }
  records := .empty ⟨"", .incoming, ⟨""⟩, false, 0⟩
  inBackground := false
  setUp _ := .notStarted
  remoteDescriptions := []
  backgroundTask _ := .none
  unplaced := []
  log := []

def emit (s : State) (effect : Effect) : State := { s with log := s.log ++ [effect] }

def setSetUp (s : State) (call : CallRef) (stage : SetUp) : State :=
  { s with setUp := fun c => if c = call then stage else s.setUp c }

def setBackgroundTask (s : State) (call : CallRef) (task : BackgroundTask) : State :=
  { s with backgroundTask := fun c => if c = call then task else s.backgroundTask c }

end State
end SignalIOS.Call
