import SignalIOS.Call.SessionDescription
import SignalIOS.Lib.Runs

/-! The promises of a peer connection client, along the blocks of its signaling queue and the
completion handlers of WebRTC. -/
namespace SignalIOS.Call.PeerConnection
open SignalIOS.Lib

/-- Errors are those of WebRTC, and the two that the client makes. -/
inductive NegotiationError (E : Type*)
  | obsoleteClient
  | unableToProcessServerResponse
  | webRTC (error : E)
  deriving DecidableEq, Repr

/-- The value is that of a `Promise<Void>` or of a `Promise<HardenedRTCSessionDescription>`. -/
inductive Settlement (E : Type*)
  | fulfilled (value : Option HardenedRTCSessionDescription)
  | rejected (error : NegotiationError E)
  deriving DecidableEq, Repr

def Settlement.isFulfilled {E : Type*} : Settlement E → Bool
  | .fulfilled _ => true
  | .rejected _ => false

inductive WebRTCOperation
  | offer
  | answer
  | setLocalDescription
  | setRemoteDescription
  deriving DecidableEq, Repr

/-- A promise, by the function that returns it. -/
inductive PromiseBuilder
  | createOffer
  | setLocalSessionDescription
  | setRemoteSessionDescription
  | negotiateSessionDescription
  deriving DecidableEq, Repr

namespace PromiseBuilder

/-- What a promise stands for. -/
def operations : PromiseBuilder → List WebRTCOperation
  | createOffer => [.offer]
  | setLocalSessionDescription => [.setLocalDescription]
  | setRemoteSessionDescription => [.setRemoteDescription]
  | negotiateSessionDescription => [.setRemoteDescription, .answer, .setLocalDescription]

/-- The promises that a call makes: `negotiateSessionDescription` calls
`setRemoteSessionDescription`. -/
def promises : PromiseBuilder → List PromiseBuilder
  | negotiateSessionDescription => [setRemoteSessionDescription, negotiateSessionDescription]
  | builder => [builder]

end PromiseBuilder

/-- One call of the client, with what WebRTC has completed for it, and how its promises have been
settled. -/
structure Negotiation (E : Type*) where
  builder : PromiseBuilder
  completions : List (WebRTCOperation × Option E) := []
  settlements : List (PromiseBuilder × Settlement E) := []

/-- What is submitted to the signaling queue. -/
inductive SignalingBlock (E : Type*)
  | createOffer
  | offered (sdp : Option RTCSessionDescription) (error : Option E)
  | setLocalSessionDescription (sessionDescription : HardenedRTCSessionDescription)
  | setRemoteSessionDescription (sessionDescription : RTCSessionDescription)
  | negotiateAnswerSessionDescription
  | answered (sdp : Option RTCSessionDescription) (error : Option E)
  | fulfillAnswer (hardenedSessionDescription : HardenedRTCSessionDescription)

/-- The completion handlers that WebRTC is given. -/
inductive CompletionHandler
  | offer
  | setLocalDescription
  | setRemoteDescription
  | answer
  | setLocalDescriptionInternal (hardenedSessionDescription : HardenedRTCSessionDescription)

def CompletionHandler.operation : CompletionHandler → WebRTCOperation
  | offer => .offer
  | setLocalDescription | setLocalDescriptionInternal _ => .setLocalDescription
  | setRemoteDescription => .setRemoteDescription
  | answer => .answer

/-- What is still to run for a promise: a block of the signaling queue, a completion handler of
WebRTC, or the block of `catch`, which goes to the main queue. -/
inductive Continuation (E : Type*)
  | block (block : SignalingBlock E)
  | completionHandler (handler : CompletionHandler)
  | catchBlock (error : E)

/-- What a block or a handler does: it settles promises, or leaves the rest to another one. -/
structure Effect (E : Type*) where
  settlements : List (PromiseBuilder × Settlement E) := []
  next : Option (Continuation E) := none

namespace Effect
variable {E : Type*}

def fulfill (builder : PromiseBuilder) (value : Option HardenedRTCSessionDescription := none) :
    Effect E where
  settlements := [(builder, .fulfilled value)]

def reject (builder : PromiseBuilder) (error : NegotiationError E) : Effect E where
  settlements := [(builder, .rejected error)]

def async (block : SignalingBlock E) : Effect E where
  next := some (.block block)

def webRTC (handler : CompletionHandler) : Effect E where
  next := some (.completionHandler handler)

/-- The promise of `setRemoteSessionDescription`, with the `then` of `negotiateSessionDescription`
where that has called it. -/
def fulfillRemote (caller : PromiseBuilder) : Effect E where
  settlements := [(.setRemoteSessionDescription, .fulfilled none)]
  next := if caller = .negotiateSessionDescription then
    some (.block .negotiateAnswerSessionDescription) else none

def rejectRemote (caller : PromiseBuilder) (error : NegotiationError E) : Effect E where
  settlements := (.setRemoteSessionDescription, .rejected error) ::
    if caller = .negotiateSessionDescription then
      [(.negotiateSessionDescription, .rejected error)] else []

end Effect

namespace SignalingBlock
variable {E : Type*}

/-- The guards that both completion handlers for descriptions have. -/
def guardedDescription (peerConnection : Bool) (builder : PromiseBuilder)
    (sdp : Option RTCSessionDescription) (error : Option E)
    (body : HardenedRTCSessionDescription → Effect E) : Effect E :=
  if !peerConnection then .reject builder .obsoleteClient
  else match error, sdp with
    | some error, _ => .reject builder (.webRTC error)
    | none, none => .reject builder .unableToProcessServerResponse
    | none, some sessionDescription => body (.init sessionDescription)

def run (peerConnection : Bool) (caller : PromiseBuilder) : SignalingBlock E → Effect E
  | createOffer =>
    if !peerConnection then .reject .createOffer .obsoleteClient else .webRTC .offer
  | offered sdp error =>
    guardedDescription peerConnection .createOffer sdp error fun description =>
      .fulfill .createOffer (some description)
  | setLocalSessionDescription _ =>
    if !peerConnection then .reject .setLocalSessionDescription .obsoleteClient
    else .webRTC .setLocalDescription
  | setRemoteSessionDescription _ =>
    if !peerConnection then .rejectRemote caller .obsoleteClient
    else .webRTC .setRemoteDescription
  | negotiateAnswerSessionDescription =>
    if !peerConnection then .reject .negotiateSessionDescription .obsoleteClient
    else .webRTC .answer
  | answered sdp error =>
    guardedDescription peerConnection .negotiateSessionDescription sdp error fun description =>
      .webRTC (.setLocalDescriptionInternal description)
  | fulfillAnswer description => .fulfill .negotiateSessionDescription (some description)

end SignalingBlock

/-- A `catch` does not get errors that are cancellations. -/
def CompletionHandler.run {E : Type*} (isCancelledError : E → Bool) (caller : PromiseBuilder)
    (sdp : Option RTCSessionDescription) (error : Option E) : CompletionHandler → Effect E
  | offer => .async (.offered sdp error)
  | setLocalDescription => .fulfill .setLocalSessionDescription
  | setRemoteDescription => .fulfillRemote caller
  | answer => .async (.answered sdp error)
  | setLocalDescriptionInternal description =>
    match error with
    | none => .async (.fulfillAnswer description)
    | some error => if isCancelledError error then {} else ⟨[], some (.catchBlock error)⟩

/-- The client, with what is under way for the calls that were made of it, each by its index. -/
structure PeerConnectionClient (E : Type*) where
  /-- `peerConnection != nil` -/
  peerConnection : Bool := true
  /-- `none` is the block of `terminate`, which the main thread waits for. -/
  signalingQueue : List (Option (ℕ × SignalingBlock E)) := []
  completionHandlers : List (ℕ × CompletionHandler) := []
  catchBlocks : List (ℕ × E) := []
  negotiations : List (Negotiation E) := []

namespace PeerConnectionClient
variable {E : Type*}

inductive Request
  | createOffer
  | setLocalSessionDescription (sessionDescription : HardenedRTCSessionDescription)
  | setRemoteSessionDescription (sessionDescription : RTCSessionDescription)
  | negotiateSessionDescription (remoteDescription : RTCSessionDescription)

def Request.builder : Request → PromiseBuilder
  | createOffer => .createOffer
  | setLocalSessionDescription _ => .setLocalSessionDescription
  | setRemoteSessionDescription _ => .setRemoteSessionDescription
  | negotiateSessionDescription _ => .negotiateSessionDescription

/-- The block that is submitted for it. -/
def Request.block : Request → SignalingBlock E
  | createOffer => .createOffer
  | setLocalSessionDescription sessionDescription => .setLocalSessionDescription sessionDescription
  | setRemoteSessionDescription sessionDescription
  | negotiateSessionDescription sessionDescription => .setRemoteSessionDescription sessionDescription

inductive Event (E : Type*)
  | request (request : Request)
  | terminate
  /-- The first block of the signaling queue runs. -/
  | runBlock
  /-- WebRTC calls one of its completion handlers. Those for setting a description have no
  argument for one. -/
  | complete (i : ℕ) (sdp : Option RTCSessionDescription) (error : Option E)
  | runCatch (i : ℕ)

def submit (s : PeerConnectionClient E) (n : ℕ) : Option (Continuation E) → PeerConnectionClient E
  | none => s
  | some (.block block) => { s with signalingQueue := s.signalingQueue ++ [some (n, block)] }
  | some (.completionHandler handler) =>
    { s with completionHandlers := s.completionHandlers ++ [(n, handler)] }
  | some (.catchBlock error) => { s with catchBlocks := s.catchBlocks ++ [(n, error)] }

/-- What has been completed is noted, and the effect takes place. -/
def perform (s : PeerConnectionClient E) (n : ℕ) (completions : List (WebRTCOperation × Option E))
    (effect : PromiseBuilder → Effect E) : PeerConnectionClient E :=
  match s.negotiations[n]? with
  | none => s
  | some negotiation =>
    let effect := effect negotiation.builder
    { s with
      negotiations := s.negotiations.set n { negotiation with
        completions := negotiation.completions ++ completions
        settlements := negotiation.settlements ++ effect.settlements } }.submit n effect.next

/-- The main thread is waiting for the block of `terminate`. -/
def mainThreadWaits (s : PeerConnectionClient E) : Bool := s.signalingQueue.any (·.isNone)

def step (isCancelledError : E → Bool) (s : PeerConnectionClient E) :
    Event E → Option (PeerConnectionClient E)
  | .request request =>
    if s.mainThreadWaits then none
    else some { s with
      negotiations := s.negotiations ++ [{ builder := request.builder }]
      signalingQueue := s.signalingQueue ++ [some (s.negotiations.length, request.block)] }
  | .terminate =>
    if s.mainThreadWaits then none
    else some { s with signalingQueue := s.signalingQueue ++ [none] }
  | .runBlock =>
    match s.signalingQueue with
    | [] => none
    -- A client that has been terminated cannot be terminated again.
    | none :: later =>
      if s.peerConnection then some { s with peerConnection := false, signalingQueue := later }
      else none
    | some (n, block) :: later =>
      some ({ s with signalingQueue := later }.perform n [] fun caller =>
        block.run s.peerConnection caller)
  | .complete i sdp error =>
    s.completionHandlers[i]?.map fun (n, handler) =>
      { s with completionHandlers := s.completionHandlers.eraseIdx i }.perform n
        [(handler.operation, error)] fun caller => handler.run isCancelledError caller sdp error
  | .runCatch i =>
    if s.mainThreadWaits then none
    else s.catchBlocks[i]?.map fun (n, error) =>
      { s with catchBlocks := s.catchBlocks.eraseIdx i }.perform n [] fun _ =>
        .reject .negotiateSessionDescription (.webRTC error)

def machine (isCancelledError : E → Bool) : Machine (PeerConnectionClient E) (Event E) where
  init := {}
  step := step isCancelledError

end PeerConnectionClient
end SignalIOS.Call.PeerConnection
