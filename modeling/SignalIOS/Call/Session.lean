import SignalIOS.Call.Turns
import Mathlib.Tactic.Simps.Basic

/-! What a turn can do to the call service, without its tracks, background tasks and logs: a
session, the changes a turn can make to it, and what keeps it well formed. -/
namespace SignalIOS.Call
open SignalIOS.Lib

structure Session where
  call : Option CallRef
  client : Option ClientRef
  thread : Option TSContactThread
  immediate : Bool
  pending : List OWSCallIceUpdateMessage
  /-- The call whose connected promise `fulfillCallConnectedPromise` fulfills. -/
  promise : Option CallRef
  calls : Heap SignalCall
  clients : Heap PeerConnectionClient
  records : Heap TSCall
  setUp : CallRef → SetUp
  unplaced : List CallRef
  inBackground : Bool
  /-- The ICE updates sent so far, in order. -/
  iceUpdates : List OWSCallIceUpdateMessage
  /-- The calls reported as missed so far, in order. -/
  missed : List CallRef

def Effect.iceUpdates : Effect → List OWSCallIceUpdateMessage
  | .sendCallMessage ⟨_, .iceUpdateMessages messages⟩ => messages
  | _ => []

def Effect.missed : Effect → List CallRef
  | .reportMissedCall call => [call]
  | _ => []

@[simps] def State.core (s : State) : Session where
  call := s.call
  client := s.peerConnectionClient
  thread := s.thread
  immediate := s.sendIceUpdatesImmediately
  pending := s.pendingIceUpdateMessages
  promise := s.fulfillCallConnectedPromise
  calls := s.calls
  clients := s.clients
  records := s.records
  setUp := s.setUp
  unplaced := s.unplaced
  inBackground := s.inBackground
  iceUpdates := s.log.flatMap Effect.iceUpdates
  missed := s.log.flatMap Effect.missed

/-- What an event asks of the current call. Events that ask nothing are `other`. -/
inductive Input
  | other
  /-- A local ICE candidate of the current client. -/
  | candidate (message : OWSCallIceUpdateMessage)
  /-- An answer with the signaling id of the call. -/
  | answer
  /-- A data channel message by which the other side reports the call connected. -/
  | accepted
  | remoteHangup
  | remoteBusy
  | userAnswers
  | userDeclines
  /-- The call UI is made anew. -/
  | reset
  /-- Every other event by which `handleFailedCall` ends the call. -/
  | failure
  deriving DecidableEq

/-- Whether the remote party's hang-up makes a call in this state a missed one. -/
def CallState.isMissedByHangup : CallState → Bool
  | .connected | .localHangup | .remoteHangup => false
  | _ => true

/-- Whether the set-up has installed its connected promise. -/
def SetUp.isLate : SetUp → Bool
  | .race | .connected | .failed _ | .caught | .finished => true
  | _ => false

namespace Session

/-! ### Events -/

def clientInput (call : SignalCall) : ClientEvent → Input
  | .iceFailed => .failure
  | .addedLocalIceCandidate candidate =>
    .candidate ⟨call.signalingId, candidate.sdp, candidate.sdpMLineIndex, candidate.sdpMid⟩
  | .received message =>
    match message.connected, message.hangup with
    | some id, _ => if id = call.signalingId then .accepted else .failure
    | none, some id => if id = call.signalingId then .remoteHangup else .failure
    | none, none => .other
  | _ => .other

def userInput (S : Session) (call : CallRef) : UserAction → Input
  | .handleAnswerCall c => if c = call then .userAnswers else .other
  | .handleAnswerCallWithLocalId c => if c = call then .userAnswers else .failure
  | .handleDeclineCall c | .handleDeclineCallWithLocalId c | .handleLocalHungupCall c =>
    if c = call then .userDeclines else .failure
  | .setIsMuted _ => if S.client = none then .failure else .other
  | .setHasLocalVideo isAuthorized _ | .handleCallKitStartVideo isAuthorized =>
    if isAuthorized ∧ S.client = none then .failure else .other
  | .createCallUIAdapter => .reset
  | .providerDidReset => .failure
  | _ => .other

def continuationInput (S : Session) (call c : CallRef) : Continuation → Input
  | .caught =>
    match S.setUp c with
    | .failed error =>
      if ((S.calls.get c).direction = .outgoing ∨ c = call) ∧
          error.asCallError.isTimeoutOfOther call = false then .failure
      else .other
    | _ => .other
  | .remoteDescriptionRejected _ => .failure
  | .backgroundTimeout => if c = call then .failure else .other
  | _ => .other

def messageInput (S : Session) (call : SignalCall) (callerId : String) : CallMessage → Input
  | .answer id _ => if id = call.signalingId then .answer else .failure
  | .iceUpdate id _ _ _ =>
    if callerId = call.remotePhoneNumber ∧ id = call.signalingId ∧ S.client ≠ none then .other
    else .failure
  | .hangup _ => if callerId = call.remotePhoneNumber then .remoteHangup else .other
  | .busy _ => .remoteBusy

def currentInput (S : Session) (call : CallRef) : Event → Input
  | .received message callerId => S.messageInput (S.calls.get call) callerId message
  | .client client event =>
    if S.client = some client then clientInput (S.calls.get call) event else .other
  | .user action => S.userInput call action
  | .continuation c continuation => S.continuationInput call c continuation
  | _ => .other

def input (S : Session) (e : Event) : Input :=
  match S.call with
  | none => .other
  | some call => S.currentInput call e

/-! ### Changes -/

@[simps] def requestVideo (enabled : Bool) (k : PeerConnectionClient) : PeerConnectionClient :=
  { k with localVideoEnabled := some enabled }

/-- Update the current client, if there is one. -/
def forClient (S : Session) (f : PeerConnectionClient → PeerConnectionClient) :
    Heap PeerConnectionClient :=
  match S.client with
  | none => S.clients
  | some client => S.clients.modify client f

def forCall (S : Session) (f : SignalCall → SignalCall) : Heap SignalCall :=
  match S.call with
  | none => S.calls
  | some call => S.calls.modify call f

/-- Whether the local video track is to be sent. -/
def video (S : Session) : Bool :=
  !S.inBackground &&
    match S.call with
    | none => false
    | some c => (S.calls.get c).state == .connected && (S.calls.get c).hasLocalVideo

@[simps] def syncVideo (S : Session) : Session :=
  { S with
    clients := match S.call with
      | none => S.clients
      | some _ => S.forClient (requestVideo S.video) }

@[simps] def stage (S : Session) (c : CallRef) (stage : SetUp) : Session :=
  { S with setUp := fun d => if d = c then stage else S.setUp d }

@[simps] def create (S : Session) (number : String) (id : UInt64) : Session :=
  { S with calls := S.calls.alloc (.outgoingCall number id),
           unplaced := S.calls.next :: S.unplaced }

/-- An outgoing call is refused while another call is current. -/
@[simps] def refuse (S : Session) (c : CallRef) : Session :=
  { S with
    unplaced := S.unplaced.erase c
    calls := S.calls.modify c fun k => { k with state := .localFailure } }

/-- An outgoing call becomes current, with its record. -/
@[simps] def place (S : Session) (c : CallRef) (state : CallState) (setUp : SetUp) : Session :=
  let number := (S.calls.get c).remotePhoneNumber
  { S with
    unplaced := S.unplaced.erase c
    call := some c
    thread := some ⟨number⟩
    immediate := false
    pending := []
    records := S.records.alloc ⟨number, .outgoingIncomplete, ⟨number⟩, true, c⟩
    calls := S.calls.modify c fun k =>
      { k with state, observers := [.callService], callRecord := some S.records.next }
    clients := S.forClient (requestVideo false)
    setUp := fun d => if d = c then setUp else S.setUp d }

/-- An incoming call is turned away as busy, and recorded as missed. -/
@[simps] def turnAway (S : Session) (number : String) (id : UInt64) : Session :=
  { S with
    calls := S.calls.alloc
      { SignalCall.incomingCall number id with callRecord := some S.records.next }
    records := S.records.alloc ⟨number, .missed, ⟨number⟩, true, S.calls.next⟩
    missed := S.missed ++ [S.calls.next] }

@[simps] def offer (S : Session) (number : String) (id : UInt64) (sessionDescription : String) :
    Session :=
  { S with
    calls := S.calls.alloc { SignalCall.incomingCall number id with observers := [.callService] }
    call := some S.calls.next
    thread := some ⟨number⟩
    clients := S.forClient (requestVideo false)
    setUp := fun d =>
      if d = S.calls.next then .iceServers (some sessionDescription) else S.setUp d }

@[simps] def makeClient (S : Session) (c : CallRef) (client : PeerConnectionClient)
    (stage : SetUp) : Session :=
  { S with
    clients := S.clients.alloc client
    client := some S.clients.next
    setUp := fun d => if d = c then stage else S.setUp d }

@[simps] def race (S : Session) (c : CallRef) : Session :=
  { S with promise := some c, setUp := fun d => if d = c then .race else S.setUp d }

@[simps] def ring (S : Session) (c : CallRef) (state : CallState) : Session :=
  { S with
    calls := S.calls.modify c fun k => { k with state }
    clients := S.forClient (requestVideo false) }

/-- The pending promise that `fulfillCallConnectedPromise` belongs to is fulfilled. -/
def fulfilled (S : Session) (d : CallRef) : SetUp :=
  if S.promise = some d ∧ S.setUp d = .race then .connected else S.setUp d

def completed : RPRecentCallType → RPRecentCallType
  | .outgoingIncomplete => .outgoing
  | .incomingIncomplete => .incoming
  | callType => callType

/-- The record of `c`, if it has one, no longer is incomplete. -/
def complete (S : Session) (c : CallRef) : Heap TSCall :=
  match (S.calls.get c).callRecord with
  | none => S.records
  | some record => S.records.modify record fun r => { r with callType := completed r.callType }

def connectClient (S : Session) (c : CallRef) (k : PeerConnectionClient) : PeerConnectionClient :=
  { k with
    audioEnabled := some !(S.calls.get c).isMuted
    localVideoEnabled := some (!S.inBackground && (S.calls.get c).hasLocalVideo) }

@[simps] def connect (S : Session) (c : CallRef) (client : ClientRef) : Session :=
  { S with
    setUp := S.fulfilled
    calls := S.calls.modify c fun k => { k with state := .connected }
    records := S.complete c
    clients := S.clients.modify client (S.connectClient c) }

/-- The user answers `c`, which is recorded and connected. -/
@[simps] def answer (S : Session) (c : CallRef) (client : ClientRef) : Session :=
  let number := (S.calls.get c).remotePhoneNumber
  { S with
    setUp := S.fulfilled
    calls := S.calls.modify c fun k =>
      { k with callRecord := some S.records.next, state := .connected }
    records := S.records.alloc ⟨number, .incoming, ⟨number⟩, true, c⟩
    clients := S.clients.modify client (S.connectClient c) }

@[simps] def mute (S : Session) (c : CallRef) (client : ClientRef) (isMuted : Bool) : Session :=
  { S with
    calls := S.calls.modify c fun k => { k with isMuted }
    clients := S.clients.modify client fun k => { k with audioEnabled := some !isMuted } }

@[simps] def setVideo (S : Session) (c : CallRef) (client : ClientRef) (hasLocalVideo : Bool) :
    Session :=
  { S with
    calls := S.calls.modify c fun k => { k with hasLocalVideo }
    clients := S.clients.modify client (requestVideo (!S.inBackground &&
      ((S.calls.get c).state == .connected && hasLocalVideo))) }

def setBackground (S : Session) (inBackground : Bool) : Session :=
  { S with inBackground }.syncVideo

@[simps] def sendPending (S : Session) : Session :=
  { S with immediate := true, iceUpdates := S.iceUpdates ++ S.pending }

@[simps] def buffer (S : Session) (message : OWSCallIceUpdateMessage) : Session :=
  { S with pending := S.pending ++ [message] }

@[simps] def send (S : Session) (message : OWSCallIceUpdateMessage) : Session :=
  { S with iceUpdates := S.iceUpdates ++ [message] }

/-- Report `c` missed, and record it as missed unless it has a record of another kind. -/
@[simps] def miss (S : Session) (c : CallRef) : Session :=
  let number := (S.calls.get c).remotePhoneNumber
  { S with
    missed := S.missed ++ [c]
    calls := match (S.calls.get c).callRecord with
      | none => S.calls.modify c fun k => { k with callRecord := some S.records.next }
      | some _ => S.calls
    records := match (S.calls.get c).callRecord with
      | none => S.records.alloc ⟨number, .missed, ⟨number⟩, true, c⟩
      | some record => S.records.modify record fun r =>
          { r with callType := if r.callType = .incoming then .missed else r.callType } }

/-- No call is current any more. -/
@[simps] def clear (S : Session) : Session :=
  { S with
    call := none
    client := none
    thread := none
    immediate := true
    pending := []
    calls := S.forCall fun k => { k with observers := [] }
    clients := S.forClient fun k => { k with terminated := true } }

/-- The current call `c` ends in the terminal state that `f` gives it. -/
@[simps] def finish (S : Session) (c : CallRef) (f : SignalCall → SignalCall) : Session :=
  { S with
    call := none
    client := none
    thread := none
    immediate := true
    pending := []
    calls := S.calls.modify c fun k => { f k with observers := [] }
    clients := S.forClient fun k => { k with localVideoEnabled := some false, terminated := true } }

def fail (S : Session) (c : CallRef) (error : CallError) : Session :=
  S.finish c fun k => { k with state := .localFailure, error := some error }

/-! ### Well-formed sessions -/

structure WellFormed (S : Session) : Prop where
  observers : ∀ c, (S.calls.get c).observers = if S.call = some c then [.callService] else []
  allocated : ∀ c, S.call = some c → c < S.calls.next
  thread : S.thread = S.call.map fun c => ⟨(S.calls.get c).remotePhoneNumber⟩
  notIdle : ∀ c, (S.calls.get c).state ≠ .idle
  client : ∀ k, S.client = some k → k < S.clients.next ∧ (S.clients.get k).terminated = false
  nodup : S.unplaced.Nodup
  unplaced : ∀ c ∈ S.unplaced, c < S.calls.next ∧ S.setUp c = .notStarted ∧
    ∃ number id, S.calls.get c = .outgoingCall number id
  notStarted : ∀ c, S.calls.next ≤ c → S.setUp c = .notStarted
  promise : ∀ c, S.promise = some c → (S.setUp c).isLate = true

end Session
end SignalIOS.Call
