import SignalIOS.Call.Basic

/-! The handlers of `CallService`, with the property observers of `SignalCall` they trigger.

Assertions are those of a release build, where `assert` does nothing. -/
namespace SignalIOS.Call
open SignalIOS.Lib

/-- `Platform.isSimulator` of a device build. -/
def Platform.isSimulator : Bool := false

def TAG : String := "[CallService]"

/-- `CallService.fallbackIceServer`. -/
def fallbackIceServer : RTCIceServer := { urlStrings := ["stun:stun1.l.google.com:19302"] }

/-- `getIceServers()`, from the result of `accountManager.getTurnServerInfo()`. Its `recover` is taken
to run for every error, also for that of a cancellation, so its promise is never rejected. -/
def getIceServers : Except NSError TurnServerInfo → List RTCIceServer
  | .ok turnServerInfo =>
    turnServerInfo.urls.map (fun url =>
      if url.startsWith "turn" then
        { urlStrings := [url], username := some turnServerInfo.username,
          credential := some turnServerInfo.password }
      else { urlStrings := [url] }) ++ [fallbackIceServer]
  | .error _ => [fallbackIceServer]

/-- `if case .timeout(_, call: let timedOutCall) = error`, with `timedOutCall != call`. -/
def CallError.isTimeoutOfOther (error : CallError) (call : CallRef) : Bool :=
  match error with
  | .timeout _ timedOutCall => timedOutCall != call
  | _ => false

namespace State

/-! ### Requests to the peer connection client -/

def setAudioEnabled (s : State) (client : ClientRef) (enabled : Bool) : State :=
  { s with clients := s.clients.modify client fun k => { k with audioEnabled := some enabled } }

def setLocalVideoEnabled (s : State) (client : ClientRef) (enabled : Bool) : State :=
  { s with
    clients := s.clients.modify client fun k => { k with localVideoEnabled := some enabled } }

def terminateClient (s : State) (client : ClientRef) : State :=
  { s with clients := s.clients.modify client fun k => { k with terminated := true } }

/-! ### Video -/

def shouldHaveLocalVideoTrack (s : State) : Bool :=
  !Platform.isSimulator && !s.inBackground &&
    match s.call with
    | none => false
    | some call => (s.calls.get call).state == .connected && (s.calls.get call).hasLocalVideo

def updateIsVideoEnabled (s : State) : State :=
  match s.call with
  | none => s
  | some call =>
    match s.peerConnectionClient with
    | none => s
    | some client =>
      (s.setLocalVideoEnabled client s.shouldHaveLocalVideoTrack).emit
        (.sendDataChannelMessage client
          (.forVideoStreamingStatus (s.calls.get call).signalingId s.shouldHaveLocalVideoTrack))

/-! ### `SignalCall` properties and their observers -/

def stateDidChange (s : State) : State := s.updateIsVideoEnabled

def hasLocalVideoDidChange (s : State) : State := s.updateIsVideoEnabled

/-- The loop over `observers` in the `didSet` of a property of `call`. -/
def notifyObservers (s : State) (call : CallRef) (callback : State → State) : State :=
  (s.calls.get call).observers.foldl (fun s observer => match observer with
    | .callService => callback s) s

def updateCallType (s : State) (record : RecordRef) (callType : RPRecentCallType) : State :=
  { s with records := s.records.modify record fun r => { r with callType } }

/-- Mark incomplete calls as completed if the call has connected. -/
def updateCallRecordType (s : State) (call : CallRef) : State :=
  match (s.calls.get call).callRecord with
  | none => s
  | some record =>
    if (s.calls.get call).state = .connected then
      match (s.records.get record).callType with
      | .outgoingIncomplete => s.updateCallType record .outgoing
      | .incomingIncomplete => s.updateCallType record .incoming
      | _ => s
    else s

/-- `call.callRecord = record`. -/
def setCallRecord (s : State) (call : CallRef) (record : RecordRef) : State :=
  updateCallRecordType
    { s with calls := s.calls.modify call fun k => { k with callRecord := some record } } call

/-- `call.hasLocalVideo = hasLocalVideo`. -/
def setCallHasLocalVideo (s : State) (call : CallRef) (hasLocalVideo : Bool) : State :=
  notifyObservers { s with calls := s.calls.modify call fun k => { k with hasLocalVideo } } call
    hasLocalVideoDidChange

/-- `call.state = state`. -/
def setCallState (s : State) (call : CallRef) (state : CallState) : State :=
  (updateCallRecordType { s with calls := s.calls.modify call fun k => { k with state } }
    call).notifyObservers call stateDidChange

/-- `call.isMuted = isMuted`; `muteDidChange` does nothing. -/
def setCallIsMuted (s : State) (call : CallRef) (isMuted : Bool) : State :=
  { s with calls := s.calls.modify call fun k => { k with isMuted } }

/-- `call.error = error`. -/
def setCallError (s : State) (call : CallRef) (error : CallError) : State :=
  { s with calls := s.calls.modify call fun k => { k with error := some error } }

def addObserverAndSyncState (s : State) (call : CallRef) : State :=
  stateDidChange
    { s with calls := s.calls.modify call fun k =>
        { k with observers := k.observers ++ [.callService] } }

def removeObserver (s : State) (call : CallRef) : State :=
  { s with calls := s.calls.modify call fun k =>
      { k with observers := k.observers.filter (· ≠ .callService) } }

def removeAllObservers (s : State) (call : CallRef) : State :=
  { s with calls := s.calls.modify call fun k => { k with observers := [] } }

/-- `self.call = newCall`, with its `didSet`. -/
def setCall (s : State) (newCall : Option CallRef) : State :=
  let oldValue := s.call
  let s := { s with call := newCall }
  let s := match oldValue with
    | none => s
    | some call => s.removeObserver call
  let s := match newCall with
    | none => s
    | some call => s.addObserverAndSyncState call
  s.updateIsVideoEnabled

/-- A new saved `TSCall` for `call`, which becomes its `callRecord`. -/
def insertCallRecord (s : State) (call : CallRef) (callNumber : String)
    (callType : RPRecentCallType) (thread : TSContactThread) : State :=
  setCallRecord { s with records := s.records.alloc ⟨callNumber, callType, thread, true, call⟩ }
    call s.records.next

/-! ### Termination -/

/-- Clean up any existing call state and get ready to receive a new call. -/
def terminateCall (s : State) : State :=
  let s := { s with localVideoTrack := none, remoteVideoTrack := none,
                    isRemoteVideoEnabled := false }
  let s := match s.peerConnectionClient with
    | none => s
    | some client => s.terminateClient client
  let s := { s with peerConnectionClient := none }
  let s := match s.call with
    | none => s
    | some call => s.removeAllObservers call
  let s := s.setCall none
  { s with
    thread := none, incomingCallPromise := none, sendIceUpdatesImmediately := true,
    pendingIceUpdateMessages := [] }

def handleFailedCall (s : State) (error : CallError) : State :=
  match s.call with
  | some call =>
    if error.isTimeoutOfOther call then s
    else
      (((s.setCallError call error).setCallState call .localFailure).emit
        (.failCall call error)).terminateCall
  | none => s.terminateCall

/-- Every guard that fails a call does it with an assertion error. -/
def failAssertion (s : State) (description : String) : State :=
  s.handleFailedCall (.assertionError description)

/-! ### Missed and busy calls -/

def handleMissedCall (s : State) (call : CallRef) (thread : TSContactThread) : State :=
  let s := match (s.calls.get call).callRecord with
    | some record =>
      if (s.records.get record).callType = RPRecentCallType.incoming then
        s.updateCallType record .missed
      else s
    | none => s.insertCallRecord call thread.contactIdentifier .missed thread
  s.emit (.reportMissedCall call)

def handleLocalBusyCall (s : State) (call : CallRef) (thread : TSContactThread) : State :=
  handleMissedCall
    (s.emit (.sendCallMessage ⟨thread, .busyMessage (s.calls.get call).signalingId⟩)) call thread

def handleRemoteBusy (s : State) (_thread : TSContactThread) : State :=
  match s.call with
  | none => s.failAssertion "call unexpectedly nil in handleRemoteBusy(thread:)"
  | some call => ((s.setCallState call .remoteBusy).emit (.remoteBusy call)).terminateCall

/-! ### Placing a call -/

/-- The synchronous part of `handleOutgoingCall(_:)`. -/
def handleOutgoingCall (s : State) (call : CallRef) : State :=
  match s.call with
  | some _ => s.setCallState call .localFailure
  | none =>
    let s := s.setCall (some call)
    let thread : TSContactThread := ⟨(s.calls.get call).remotePhoneNumber⟩
    let s := { s with
      thread := some thread, sendIceUpdatesImmediately := false, pendingIceUpdateMessages := [] }
    let s := s.insertCallRecord call (s.calls.get call).remotePhoneNumber .outgoingIncomplete thread
    match s.peerConnectionClient with
    | some _ => s.setCallState call .localFailure
    | none => s.setSetUp call (.iceServers none)

/-- A new client becomes the current one. -/
def makePeerConnectionClient (s : State) (iceServers : List RTCIceServer)
    (callDirection : CallDirection) : State :=
  { s with
    clients := s.clients.alloc { iceServers, callDirection }
    peerConnectionClient := some s.clients.next }

/-- The first `then` of `handleOutgoingCall`. -/
def outgoingIceServers (s : State) (call : CallRef) (iceServers : List RTCIceServer) : State :=
  (s.makePeerConnectionClient iceServers .outgoing).setSetUp call .offer

/-- The second one, which unwraps `self.peerConnectionClient!` by force. -/
def outgoingOffer (s : State) (call : CallRef) (sessionDescription : String) : Option State :=
  s.peerConnectionClient.map fun client =>
    (s.emit (.setLocalSessionDescription client sessionDescription)).setSetUp call
      (.localDescription sessionDescription)

/-- The `then` inside it, which sends the offer to the thread of `call`. -/
def outgoingLocalDescription (s : State) (call : CallRef) (sessionDescription : String) : State :=
  (s.emit (.sendCallMessage ⟨⟨(s.calls.get call).remotePhoneNumber⟩,
    .offerMessage (s.calls.get call).signalingId sessionDescription⟩)).setSetUp call .sending

/-- Install the connected promise of `call` and race it against its timeout. -/
def raceConnectedPromise (s : State) (call : CallRef) : State :=
  { s with fulfillCallConnectedPromise := some call }.setSetUp call .race

/-- The `catch` of `handleOutgoingCall`. -/
def outgoingCatch (s : State) (call : CallRef) (error : Error) : State :=
  (s.setSetUp call .caught).handleFailedCall error.asCallError

/-! ### Receiving a call -/

/-- The synchronous part of `handleReceivedOffer`. -/
def handleReceivedOffer (s : State) (thread : TSContactThread) (callId : UInt64)
    (callerSessionDescription : String) (hasOngoingRedphoneCall : Bool) : State :=
  let newCall := s.calls.next
  let busy := s.call.isSome || hasOngoingRedphoneCall
  let s := { s with calls := s.calls.alloc (.incomingCall thread.contactIdentifier callId) }
  if busy then s.handleLocalBusyCall newCall thread
  else
    let s := { s with thread := some thread }
    let s := s.setCall (some newCall)
    let s := s.setBackgroundTask newCall .running
    { s with incomingCallPromise := some newCall }.setSetUp newCall
      (.iceServers (some callerSessionDescription))

/-- `guard self.call == newCall else { throw .assertionError(description) }`, in a continuation
of the set-up chain of `newCall`. -/
def guardCurrent (s : State) (newCall : CallRef) (description : String) (rest : State) : State :=
  if s.call = some newCall then rest
  else s.setSetUp newCall (.failed (.callError (.assertionError description)))

/-- The first `then` of `handleReceivedOffer`. -/
def incomingIceServers (s : State) (newCall : CallRef) (iceServers : List RTCIceServer)
    (callerSessionDescription : String) : State :=
  s.guardCurrent newCall "getIceServers() response for obsolete call" <|
    ((s.makePeerConnectionClient iceServers .incoming).emit
      (.negotiateSessionDescription s.clients.next callerSessionDescription)).setSetUp newCall
        .negotiation

/-- The second one, which sends the answer to the thread of `newCall`. -/
def incomingNegotiated (s : State) (newCall : CallRef) (sessionDescription : String) : State :=
  s.guardCurrent newCall "negotiateSessionDescription() response for obsolete call" <|
    (s.emit (.sendCallMessage ⟨⟨(s.calls.get newCall).remotePhoneNumber⟩,
      .answerMessage (s.calls.get newCall).signalingId sessionDescription⟩)).setSetUp newCall
        .sending

/-- The third one. -/
def incomingSent (s : State) (newCall : CallRef) : State :=
  s.guardCurrent newCall "sendCallMessage() response for obsolete call" <|
    s.raceConnectedPromise newCall

/-- The `catch` of `handleReceivedOffer`. -/
def incomingCatch (s : State) (newCall : CallRef) (error : Error) : State :=
  let s := s.setSetUp newCall .caught
  if s.call = some newCall then s.handleFailedCall error.asCallError else s

/-- The main-queue block that the expiration handler of the background task posts. -/
def backgroundTimeout (s : State) (newCall : CallRef) : State :=
  if s.call = some newCall then
    s.handleFailedCall (.timeout "background task time ran out before call connected." newCall)
  else s

/-! ### Signaling messages -/

/-- From now on ICE updates are sent at once. The pending ones are sent too, and stay in the
list. -/
def sendPendingIceUpdates (s : State) (thread : TSContactThread) : State :=
  let s := { s with sendIceUpdatesImmediately := true }
  if s.pendingIceUpdateMessages.length > 0 then
    s.emit (.sendCallMessage ⟨thread, .iceUpdateMessages s.pendingIceUpdateMessages⟩)
  else s

def handleReceivedAnswer (s : State) (thread : TSContactThread) (callId : UInt64)
    (sessionDescription : String) : State :=
  match s.call with
  | none =>
    s.failAssertion
      "call was unexpectedly nil in handleReceivedAnswer(thread:callId:sessionDescription:)"
  | some call =>
    if (s.calls.get call).signalingId ≠ callId then
      s.failAssertion
        s!"received answer for call: {callId} but current call has id: {(s.calls.get call).signalingId}"
    else
      let s := s.sendPendingIceUpdates thread
      match s.peerConnectionClient with
      | none =>
        s.failAssertion
          "peerConnectionClient was unexpectedly nil in handleReceivedAnswer(thread:callId:sessionDescription:)"
      | some client =>
        { s with remoteDescriptions := call :: s.remoteDescriptions }.emit
          (.setRemoteSessionDescription client sessionDescription)

def handleRemoteAddedIceCandidate (s : State) (thread : TSContactThread) (callId : UInt64)
    (sdp : String) (lineIndex : Int32) (mid : String) : State :=
  match s.thread with
  | none =>
    s.failAssertion
      s!"ignoring remote ice update for thread: {thread} since there is no current thread. Call already ended?"
  | some current =>
    if thread.contactIdentifier ≠ current.contactIdentifier then
      s.failAssertion
        s!"ignoring remote ice update for thread: {thread} since the current call is for thread: {current}"
    else
      match s.call with
      | none =>
        s.failAssertion
          s!"ignoring remote ice update for callId: {callId}, since there is no current call."
      | some call =>
        if (s.calls.get call).signalingId ≠ callId then
          s.failAssertion
            s!"ignoring remote ice update for call: {callId} since the current call is: {(s.calls.get call).signalingId}"
        else
          match s.peerConnectionClient with
          | none =>
            s.failAssertion
              s!"ignoring remote ice update for thread: {thread} since the current call hasn't initialized it's peerConnectionClient"
          | some client => s.emit (.addIceCandidate client ⟨sdp, lineIndex, mid⟩)

/-- The switch of `handleRemoteHangup` on the state of the call. -/
def handleMissedByHangup (s : State) (call : CallRef) (thread : TSContactThread) : State :=
  match (s.calls.get call).state with
  | .idle | .dialing | .answering | .localRinging | .localFailure | .remoteBusy
  | .remoteRinging => s.handleMissedCall call thread
  | .connected | .localHangup | .remoteHangup => s

def handleRemoteHangup (s : State) (thread : TSContactThread) : State :=
  if s.thread.map (·.contactIdentifier) ≠ some thread.contactIdentifier then s
  else
    match s.call with
    | none => s.failAssertion s!"{TAG} call was unexpectedly nil in handleRemoteHangup(thread:)"
    | some call =>
      let s := s.handleMissedByHangup call thread
      ((s.setCallState call .remoteHangup).emit (.remoteDidHangupCall call)).terminateCall

/-! ### Connecting -/

/-- `fulfillCallConnectedPromise?()`. The promise is settled only while its race is pending. -/
def fulfill (s : State) : State :=
  match s.fulfillCallConnectedPromise with
  | none => s
  | some call => if s.setUp call = .race then s.setSetUp call .connected else s

def handleConnectedCall (s : State) (call : CallRef) : State :=
  match s.peerConnectionClient with
  | none =>
    s.failAssertion s!"{TAG} peerConnectionClient unexpectedly nil in handleConnectedCall"
  | some client =>
    let s := s.fulfill.setCallState call .connected
    let s := s.setAudioEnabled client !(s.calls.get call).isMuted
    s.setLocalVideoEnabled client s.shouldHaveLocalVideoTrack

def handleAnswerCall (s : State) (call : CallRef) : State :=
  match s.call with
  | none => s.failAssertion s!"{TAG} ignoring handleAnswerCall since there is no current call"
  | some current =>
    if call ≠ current then s
    else
      match s.thread with
      | none => s.failAssertion s!"{TAG} ignoring handleAnswerCall for call other than current call"
      | some thread =>
        match s.peerConnectionClient with
        | none => s.failAssertion s!"{TAG} missing peerconnection client in handleAnswerCall"
        | some client =>
          let s := s.insertCallRecord call (s.calls.get call).remotePhoneNumber
            .incomingIncomplete thread
          let s := s.emit
            (.sendDataChannelMessage client (.forConnected (s.calls.get call).signalingId))
          s.handleConnectedCall call

/-- The lookups by `localId` of `handleAnswerCall(localId:)` and `handleDeclineCall(localId:)`. -/
def withLocalId (s : State) (localId : CallRef) (function : String)
    (handler : State → CallRef → State) : State :=
  match s.call with
  | none => s.failAssertion s!"{TAG} call was unexpectedly nil in {function}"
  | some call =>
    if call ≠ localId then
      s.failAssertion s!"{TAG} callLocalId:{localId} doesn't match current calls: {call}"
    else handler s call

def handleAnswerCallWithLocalId (s : State) (localId : CallRef) : State :=
  s.withLocalId localId "handleAnswerCall(localId:)" handleAnswerCall

/-! ### Hanging up -/

def handleLocalHungupCall (s : State) (call : CallRef) : State :=
  match s.call with
  | none => s.failAssertion s!"{TAG} ignoring handleLocalHungupCall since there is no current call"
  | some current =>
    if call ≠ current then
      s.failAssertion s!"{TAG} ignoring handleLocalHungupCall for call other than current call"
    else
      match s.peerConnectionClient with
      | none => s.failAssertion s!"{TAG} missing peerconnection client in handleLocalHungupCall"
      | some client =>
        match s.thread with
        | none => s.failAssertion s!"{TAG} missing thread in handleLocalHungupCall"
        | some thread =>
          let s := s.setCallState call .localHangup
          let id := (s.calls.get call).signalingId
          let s := s.emit (.sendDataChannelMessage client (.forHangup id))
          (s.emit (.sendCallMessage ⟨thread, .hangupMessage id⟩)).terminateCall

def handleDeclineCall (s : State) (call : CallRef) : State := s.handleLocalHungupCall call

def handleDeclineCallWithLocalId (s : State) (localId : CallRef) : State :=
  s.withLocalId localId "handleDeclineCall(localId:)" handleDeclineCall

/-! ### Muting and local video -/

def setIsMuted (s : State) (isMuted : Bool) : State :=
  match s.peerConnectionClient with
  | none => s.failAssertion s!"{TAG} peerConnectionClient unexpectedly nil in setIsMuted(isMuted:)"
  | some client =>
    match s.call with
    | none => s.failAssertion s!"{TAG} call unexpectedly nil in setIsMuted(isMuted:)"
    | some call => (s.setCallIsMuted call isMuted).setAudioEnabled client !isMuted

/-- `isAuthorized` says whether the camera authorization status is `.authorized`. -/
def setHasLocalVideo (s : State) (isAuthorized hasLocalVideo : Bool) : State :=
  if !isAuthorized then s
  else
    match s.peerConnectionClient with
    | none =>
      s.failAssertion
        s!"{TAG} peerConnectionClient unexpectedly nil in setHasLocalVideo(hasLocalVideo:)"
    | some client =>
      match s.call with
      | none => s.failAssertion s!"{TAG} call unexpectedly nil in setHasLocalVideo(hasLocalVideo:)"
      | some call =>
        let s := s.setCallHasLocalVideo call hasLocalVideo
        s.setLocalVideoEnabled client s.shouldHaveLocalVideoTrack

def handleCallKitStartVideo (s : State) (isAuthorized : Bool) : State :=
  s.setHasLocalVideo isAuthorized true

/-! ### Events of the peer connection client -/

def handleLocalAddedIceCandidate (s : State) (candidate : RTCIceCandidate) : State :=
  match s.call with
  | none => s.failAssertion "ignoring local ice candidate, since there is no current call."
  | some call =>
    if (s.calls.get call).state = .idle then
      s.failAssertion "ignoring local ice candidate, since call is now idle."
    else
      match s.thread with
      | none =>
        s.failAssertion
          "ignoring local ice candidate, because there was no current TSContactThread."
      | some thread =>
        let iceUpdateMessage : OWSCallIceUpdateMessage :=
          ⟨(s.calls.get call).signalingId, candidate.sdp, candidate.sdpMLineIndex, candidate.sdpMid⟩
        if s.sendIceUpdatesImmediately then
          s.emit (.sendCallMessage ⟨thread, .iceUpdateMessages [iceUpdateMessage]⟩)
        else
          { s with pendingIceUpdateMessages := s.pendingIceUpdateMessages ++ [iceUpdateMessage] }

def handleIceConnected (s : State) : State :=
  match s.call with
  | none => s.failAssertion s!"{TAG} ignoring handleIceConnected() since there is no current call."
  | some call =>
    match s.thread with
    | none =>
      s.failAssertion s!"{TAG} ignoring handleIceConnected() since there is no current thread."
    | some thread =>
      match (s.calls.get call).state with
      | .dialing => s.setCallState call .remoteRinging
      | .answering =>
        (s.setCallState call .localRinging).emit (.reportIncomingCall call thread)
      | _ => s

def handleDataChannelMessage (s : State) (message : OWSWebRTCProtosData) : State :=
  match s.call with
  | none =>
    s.failAssertion s!"{TAG} received data message, but there is no current call. Ignoring."
  | some call =>
    let signalingId := (s.calls.get call).signalingId
    match message.connected with
    | some id =>
      if id ≠ signalingId then
        s.failAssertion
          s!"{TAG} received connected message for call with id:{id} but current call has id:{signalingId}"
      else (s.emit (.recipientAcceptedCall call)).handleConnectedCall call
    | none =>
      match message.hangup with
      | some id =>
        if id ≠ signalingId then
          s.failAssertion
            s!"{TAG} received hangup message for call with id:{id} but current call has id:{signalingId}"
        else
          match s.thread with
          | none =>
            s.failAssertion
              s!"{TAG} current contact thread is unexpectedly nil when receiving hangup DataChannelMessage"
          | some thread => s.handleRemoteHangup thread
      | none =>
        match message.videoStreamingStatus with
        | some enabled => { s with isRemoteVideoEnabled := enabled }
        | none => s

/-- `guard peerConnectionClient == self.peerConnectionClient`: events of other clients are
obsolete. -/
def ifCurrentClient (s : State) (client : ClientRef) (handler : State → State) : State :=
  if s.peerConnectionClient = some client then handler s else s

def peerConnectionClientIceConnected (s : State) (client : ClientRef) : State :=
  s.ifCurrentClient client handleIceConnected

def peerConnectionClientIceFailed (s : State) (client : ClientRef) : State :=
  s.ifCurrentClient client (·.handleFailedCall .disconnected)

def peerConnectionClientAddedLocalIceCandidate (s : State) (client : ClientRef)
    (candidate : RTCIceCandidate) : State :=
  s.ifCurrentClient client (·.handleLocalAddedIceCandidate candidate)

def peerConnectionClientReceived (s : State) (client : ClientRef)
    (message : OWSWebRTCProtosData) : State :=
  s.ifCurrentClient client (·.handleDataChannelMessage message)

def peerConnectionClientDidUpdateLocal (s : State) (client : ClientRef)
    (videoTrack : Option RTCVideoTrack) : State :=
  s.ifCurrentClient client fun s => { s with localVideoTrack := videoTrack }

def peerConnectionClientDidUpdateRemote (s : State) (client : ClientRef)
    (videoTrack : Option RTCVideoTrack) : State :=
  s.ifCurrentClient client fun s => { s with remoteVideoTrack := videoTrack }

/-! ### Application events -/

def didEnterBackground (s : State) : State := { s with inBackground := true }.updateIsVideoEnabled

def didBecomeActive (s : State) : State := { s with inBackground := false }.updateIsVideoEnabled

/-- The part of `createCallUIAdapter()` that touches the call. -/
def createCallUIAdapter (s : State) : State :=
  if s.call.isSome then s.terminateCall else s

end State
end SignalIOS.Call
