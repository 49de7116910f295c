import SignalIOS.Call.Turns

/-! The blocks of `PeerConnectionClient` on its signaling queue and on the main queue: what WebRTC
calls back, what the call service asks for, and what its delegate hears of it. -/
namespace SignalIOS.Call
open SignalIOS.Lib

inductive RTCIceConnectionState
  | new | checking | connected | completed | failed | disconnected | closed | count
  deriving DecidableEq, Repr

/-- The methods of `RTCPeerConnectionDelegate` and `RTCDataChannelDelegate` that do more than log.
A data channel buffer is given by its message, if it parses as one. -/
inductive RTCCallback
  | didReceiveMessage (message : Option OWSWebRTCProtosData)
  | didAddStream (videoTracks : List RTCVideoTrack)
  | didChangeIceConnectionState (newState : RTCIceConnectionState)
  | didGenerate (candidate : RTCIceCandidate)
  | didOpen

inductive ClientRequest
  | setLocalVideoEnabled (enabled : Bool)
  | other
  deriving DecidableEq, Repr

inductive SignalingBlock
  | callback (callback : RTCCallback)
  | request (request : ClientRequest)

inductive DelegateBlock
  | iceConnected
  | iceFailed
  | addedLocalIceCandidate (candidate : RTCIceCandidate)
  | received (message : OWSWebRTCProtosData)
  | didUpdateLocal (videoTrack : Option RTCVideoTrack)
  | didUpdateRemote
  deriving DecidableEq

/-- The properties of a client that its blocks look at. Of the first two, only whether they are
`nil` counts; the delegate is the call service. -/
structure Connection where
  peerConnection : Bool
  delegate : Bool
  dataChannel : Bool
  localVideoTrack : Option RTCVideoTrack
  remoteVideoTrack : Option RTCVideoTrack

def Connection.closed : Connection := ⟨false, false, false, none, none⟩

/-- A new client. It makes a local video track, except on the simulator, and a data channel if it
places the call. -/
def Connection.opened (callDirection : CallDirection) (videoTrack : RTCVideoTrack) :
    Connection where
  peerConnection := true
  delegate := true
  dataChannel := callDirection == .outgoing
  localVideoTrack := if Platform.isSimulator then none else some videoTrack
  remoteVideoTrack := none

/-- The delegate method that a block calls. A remote video track is looked up only now. -/
def DelegateBlock.event (connection : Connection) : DelegateBlock → ClientEvent
  | .iceConnected => .iceConnected
  | .iceFailed => .iceFailed
  | .addedLocalIceCandidate candidate => .addedLocalIceCandidate candidate
  | .received message => .received message
  | .didUpdateLocal videoTrack => .didUpdateLocal videoTrack
  | .didUpdateRemote =>
    .didUpdateRemote (if connection.peerConnection then connection.remoteVideoTrack else none)

structure Queues where
  callService : State
  connections : ClientRef → Connection
  signalingQueue : List (ClientRef × SignalingBlock)
  mainQueue : List (ClientRef × DelegateBlock)

/-- The requests that a turn of the main queue makes of the clients, and the local video track of
a client that it makes. -/
structure Requests where
  requests : List (ClientRef × ClientRequest)
  videoTrack : RTCVideoTrack

inductive QueueEvent
  | webRTC (client : ClientRef) (callback : RTCCallback)
  | signaling
  /-- The next block of a client on the main queue runs. Its weak references may have become
  `nil`. -/
  | main (isReleased : Bool) (requests : Requests)
  | turn (event : Event) (requests : Requests)

namespace Queues

def initial : Queues where
  callService := .initial
  connections _ := .closed
  signalingQueue := []
  mainQueue := []

def setConnection (q : Queues) (client : ClientRef) (connection : Connection) : Queues :=
  { q with connections := fun c => if c = client then connection else q.connections c }

def async (q : Queues) (client : ClientRef) (block : SignalingBlock) : Queues :=
  { q with signalingQueue := q.signalingQueue ++ [(client, block)] }

/-- `if let delegate = self.delegate { DispatchQueue.main.async { .. } }`. -/
def notify (q : Queues) (client : ClientRef) (block : DelegateBlock) : Queues :=
  if (q.connections client).delegate then
    { q with mainQueue := q.mainQueue ++ [(client, block)] }
  else q

def callback (q : Queues) (client : ClientRef) (callback : RTCCallback) : Queues :=
  match callback with
  | .didAddStream videoTracks =>
    match videoTracks with
    | [] => q
    | remoteVideoTrack :: _ =>
      let connection := q.connections client
      let q := if connection.peerConnection then
        q.setConnection client { connection with remoteVideoTrack := some remoteVideoTrack } else q
      q.async client (.callback callback)
  | _ => q.async client (.callback callback)

def runCallback (q : Queues) (client : ClientRef) : RTCCallback → Queues
  | .didReceiveMessage none => q
  | .didReceiveMessage (some message) => q.notify client (.received message)
  | .didAddStream _ => q.notify client .didUpdateRemote
  | .didChangeIceConnectionState newState =>
    match newState with
    | .connected | .completed => q.notify client .iceConnected
    | .failed => q.notify client .iceFailed
    | _ => q
  | .didGenerate candidate => q.notify client (.addedLocalIceCandidate candidate)
  | .didOpen => q.setConnection client { q.connections client with dataChannel := true }

/-- A block of the signaling queue. In a terminated client it is obsolete, and ignored. -/
def runBlock (q : Queues) (client : ClientRef) (block : SignalingBlock) : Queues :=
  if (q.connections client).peerConnection then
    match block with
    | .callback callback => q.runCallback client callback
    | .request (.setLocalVideoEnabled enabled) =>
      match (q.connections client).localVideoTrack with
      | none => q
      | some videoTrack =>
        q.notify client (.didUpdateLocal (if enabled then some videoTrack else none))
    | .request .other => q
  else q

def drain (q : Queues) : Queues :=
  q.signalingQueue.foldl (fun q b => q.runBlock b.1 b.2) { q with signalingQueue := [] }

/-- `signalingQueue.sync { self.terminateInternal() }`, after the blocks that wait there. -/
def terminate (q : Queues) (client : ClientRef) : Queues := q.drain.setConnection client .closed

/-- The call service has come to `s`. Its new clients are opened, and its requests are posted. -/
def post (q : Queues) (s : State) (requests : Requests) : Queues :=
  { q with
    callService := s
    connections := fun c =>
      if q.callService.clients.next ≤ c ∧ c < s.clients.next then
        .opened (s.clients.get c).callDirection requests.videoTrack
      else q.connections c
    signalingQueue := q.signalingQueue ++ requests.requests.map fun r => (r.1, .request r.2) }

/-- A turn in which the call service comes to `s`. The client that it terminates was current. -/
def mainTurn (q : Queues) (s : State) (requests : Requests) : Queues :=
  match q.callService.peerConnectionClient with
  | none => q.post s requests
  | some client =>
    if (s.clients.get client).terminated then (q.post s requests).terminate client
    else q.post s requests

def turn (q : Queues) (event : Event) (requests : Requests) : Option Queues :=
  (q.callService.next event).map (q.mainTurn · requests)

/-- The events of clients reach the call service by the main queue only. -/
def step (q : Queues) : QueueEvent → Option Queues
  | .webRTC client callback =>
    if client < q.callService.clients.next then some (q.callback client callback) else none
  | .signaling =>
    match q.signalingQueue with
    | [] => none
    | (client, block) :: rest => some ({ q with signalingQueue := rest }.runBlock client block)
  | .main isReleased requests =>
    match q.mainQueue with
    | [] => none
    | (client, block) :: rest =>
      let q := { q with mainQueue := rest }
      if isReleased then
        -- The call service holds its current client.
        if q.callService.peerConnectionClient = some client then none else some q
      else q.turn (.client client (block.event (q.connections client))) requests
  | .turn event requests =>
    match event with
    | .client _ _ => none
    | _ => q.turn event requests

end Queues

def queueMachine : Machine Queues QueueEvent := ⟨.initial, Queues.step⟩

end SignalIOS.Call
