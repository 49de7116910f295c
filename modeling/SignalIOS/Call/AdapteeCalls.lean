import SignalIOS.Call.Frame

/-! What a turn tells the call UI: which call has failed, and which incoming call rings. -/
namespace SignalIOS.Call
open SignalIOS.Lib

def Effect.failed : Effect → List CallRef
  | .failCall call _ => [call]
  | _ => []

def Effect.reported : Effect → List CallRef
  | .reportIncomingCall call _ => [call]
  | _ => []

namespace State
variable {s s' s'' : State} {f f' r r' : List CallRef} {c : CallRef}

/-- On the way from `s` to `s'` the call UI is told that the calls `f` have failed and the calls
`r` ring. -/
def Tells (s s' : State) (f r : List CallRef) : Prop :=
  ∃ effects, s'.log = s.log ++ effects ∧ effects.flatMap Effect.failed = f ∧
    effects.flatMap Effect.reported = r

theorem Tells.trans (h : s.Tells s' f r) (h' : s'.Tells s'' f' r') :
    s.Tells s'' (f ++ f') (r ++ r') := by
  obtain ⟨effects, hlog, rfl, rfl⟩ := h
  obtain ⟨effects', hlog', rfl, rfl⟩ := h'
  refine ⟨effects ++ effects', ?_, ?_, ?_⟩
  · rw [hlog', hlog, List.append_assoc]
  · exact List.flatMap_append
  · exact List.flatMap_append

theorem tells_emit (s : State) (effect : Effect) :
    s.Tells (s.emit effect) effect.failed effect.reported :=
  ⟨[effect], rfl, by simp, by simp⟩

/-! ### Operations that tell nothing -/

abbrev Silent (s s' : State) : Prop := s.Tells s' [] []

theorem silent_of_log (h : s'.log = s.log) : s.Silent s' := ⟨[], by simpa using h, rfl, rfl⟩

theorem Tells.silent (h : s.Tells s' f r) (h' : s'.Silent s'') : s.Tells s'' f r := by
  simpa using h.trans h'

theorem Tells.emit (h : s.Tells s' f r) {effect : Effect} (hf : effect.failed = [])
    (hr : effect.reported = []) : s.Tells (s'.emit effect) f r := by
  have hemit := tells_emit s' effect
  rw [hf, hr] at hemit
  exact h.silent hemit

/-- Operations before and after that leave the log alone. -/
theorem Tells.after (h : s'.Tells s'' f r) (hlog : s'.log = s.log) : s.Tells s'' f r :=
  (silent_of_log hlog).trans h

theorem Tells.before (h : s.Tells s' f r) (hlog : s''.log = s'.log) : s.Tells s'' f r :=
  h.silent (silent_of_log hlog)

theorem silent_updateIsVideoEnabled (s : State) : s.Silent s.updateIsVideoEnabled := by
  unfold updateIsVideoEnabled
  cases s.call with
  | none => exact silent_of_log rfl
  | some c =>
    cases s.peerConnectionClient with
    | none => exact silent_of_log rfl
    | some client => exact (silent_of_log rfl).emit rfl rfl

theorem silent_notifyObservers {callback : State → State} (h : ∀ s : State, s.Silent (callback s))
    (s : State) (c : CallRef) : s.Silent (s.notifyObservers c callback) := by
  unfold notifyObservers
  generalize (s.calls.get c).observers = observers
  induction observers generalizing s with
  | nil => exact silent_of_log rfl
  | cons observer observers ih =>
    cases observer with
    | callService => exact (h s).silent (ih (callback s))

theorem silent_updateCallRecordType (s : State) (c : CallRef) :
    s.Silent (s.updateCallRecordType c) := by
  apply silent_of_log
  unfold updateCallRecordType
  cases (s.calls.get c).callRecord with
  | none => rfl
  | some record =>
    dsimp only
    split_ifs
    · cases (s.records.get record).callType <;> rfl
    · rfl

theorem silent_setCallState (s : State) (c : CallRef) (state : CallState) :
    s.Silent (s.setCallState c state) :=
  ((silent_updateCallRecordType _ c).silent
    (silent_notifyObservers silent_updateIsVideoEnabled _ c)).after rfl

theorem silent_setCallHasLocalVideo (s : State) (c : CallRef) (hasLocalVideo : Bool) :
    s.Silent (s.setCallHasLocalVideo c hasLocalVideo) :=
  (silent_notifyObservers silent_updateIsVideoEnabled _ c).after rfl

theorem silent_insertCallRecord (s : State) (c : CallRef) (number : String)
    (callType : RPRecentCallType) (thread : TSContactThread) :
    s.Silent (s.insertCallRecord c number callType thread) :=
  (silent_updateCallRecordType _ c).after rfl

theorem silent_addObserverAndSyncState (s : State) (c : CallRef) :
    s.Silent (s.addObserverAndSyncState c) :=
  (silent_updateIsVideoEnabled _).after rfl

theorem silent_setCall (s : State) (newCall : Option CallRef) : s.Silent (s.setCall newCall) := by
  unfold setCall
  cases s.call with
  | none =>
    cases newCall with
    | none => exact (silent_updateIsVideoEnabled _).after rfl
    | some c =>
      exact ((silent_addObserverAndSyncState _ c).silent (silent_updateIsVideoEnabled _)).after rfl
  | some d =>
    cases newCall with
    | none => exact (silent_updateIsVideoEnabled _).after rfl
    | some c =>
      exact ((silent_addObserverAndSyncState _ c).silent (silent_updateIsVideoEnabled _)).after rfl

theorem silent_terminateCall (s : State) : s.Silent s.terminateCall := by
  unfold terminateCall
  cases s.peerConnectionClient with
  | none =>
    dsimp only
    cases s.call <;> exact ((silent_setCall _ none).before rfl).after rfl
  | some client =>
    dsimp only [terminateClient]
    cases s.call <;> exact ((silent_setCall _ none).before rfl).after rfl

theorem silent_handleMissedCall (s : State) (c : CallRef) (thread : TSContactThread) :
    s.Silent (s.handleMissedCall c thread) := by
  unfold handleMissedCall
  cases (s.calls.get c).callRecord with
  | none => exact (silent_insertCallRecord s c _ _ thread).emit rfl rfl
  | some record =>
    dsimp only
    split_ifs <;> exact (silent_of_log rfl).emit rfl rfl

theorem silent_handleMissedByHangup (s : State) (c : CallRef) (thread : TSContactThread) :
    s.Silent (s.handleMissedByHangup c thread) := by
  unfold handleMissedByHangup
  cases (s.calls.get c).state with
  | connected | localHangup | remoteHangup => exact silent_of_log rfl
  | _ => exact silent_handleMissedCall s c thread

theorem silent_sendPendingIceUpdates (s : State) (thread : TSContactThread) :
    s.Silent (s.sendPendingIceUpdates thread) := by
  unfold sendPendingIceUpdates
  dsimp only
  split_ifs
  · exact (silent_of_log rfl).emit rfl rfl
  · exact silent_of_log rfl

theorem silent_fulfill (s : State) : s.Silent s.fulfill := by
  apply silent_of_log
  unfold fulfill
  cases s.fulfillCallConnectedPromise with
  | none => rfl
  | some c =>
    dsimp only
    split_ifs <;> rfl

/-! ### Operations that fail the current call -/

theorem tells_handleFailedCall (hcall : s.call = some c) {error : CallError}
    (herror : error.isTimeoutOfOther c = false) :
    s.Tells (s.handleFailedCall error) [c] [] := by
  have hstate : s.Silent ((s.setCallError c error).setCallState c .localFailure) :=
    (silent_setCallState _ c .localFailure).after rfl
  simp only [handleFailedCall, hcall, herror, Bool.false_eq_true, if_false]
  exact (hstate.trans (tells_emit _ (.failCall c error))).silent (silent_terminateCall _)

theorem silent_handleFailedCall (error : CallError)
    (h : ∀ c, s.call = some c → error.isTimeoutOfOther c = true) :
    s.Silent (s.handleFailedCall error) := by
  unfold handleFailedCall
  cases hcall : s.call with
  | none => exact silent_terminateCall s
  | some c =>
    simp only [h c hcall, if_true]
    exact silent_of_log rfl

theorem tells_failAssertion (s : State) (description : String) :
    s.Tells (s.failAssertion description) s.call.toList [] := by
  cases hcall : s.call with
  | none => exact silent_handleFailedCall _ fun c hc => nomatch hcall.symm.trans hc
  | some c => exact tells_handleFailedCall hcall rfl

end State

/-- The input `i` fails the current call, if there is one. -/
def Session.Fails (S : Session) (i : Input) : Prop :=
  i = .failure ∨ S.client = none ∧ (i = .answer ∨ i = .userAnswers ∨ i = .userDeclines)

instance (S : Session) (i : Input) : Decidable (S.Fails i) :=
  inferInstanceAs (Decidable (_ ∨ _))

namespace State
variable {s s' : State} {c : CallRef} {e : Event}

/-- The calls that a turn fails to the call UI. -/
def failedBy (s : State) (e : Event) : List CallRef :=
  if s.core.Fails (s.core.input e) then s.call.toList else []

/-- The calls that a turn reports to the call UI as incoming. -/
def reportedBy (s : State) : Event → List CallRef
  | .client client .iceConnected =>
    match s.call with
    | none => []
    | some call =>
      if s.peerConnectionClient = some client ∧ (s.calls.get call).state = .answering then [call]
      else []
  | _ => []

/-- A turn from `s` to `s'` tells what its event says. -/
abbrev Speaks (s : State) (e : Event) (s' : State) : Prop :=
  s.Tells s' (s.failedBy e) (s.reportedBy e)

theorem failedBy_of_fails (h : s.core.Fails (s.core.input e)) : s.failedBy e = s.call.toList :=
  if_pos h

theorem failedBy_of_input {i : Input} (hinput : s.core.input e = i) (h : ¬ s.core.Fails i) :
    s.failedBy e = [] :=
  if_neg (hinput ▸ h)

theorem failedBy_of_none (hcall : s.call = none) (e : Event) : s.failedBy e = [] := by
  simp [failedBy, hcall]

/-- A handler that fails the current call, after silent changes. -/
theorem speaks_handleFailedCall {s₁ : State} (hr : s.reportedBy e = [])
    (h : ∀ c, s.call = some c → s.core.Fails (s.core.currentInput c e)) (hsilent : s.Silent s₁)
    (hcall₁ : s₁.call = s.call) {error : CallError}
    (herror : ∀ c, s.call = some c → error.isTimeoutOfOther c = false) :
    s.Speaks e (s₁.handleFailedCall error) := by
  unfold Speaks
  rw [hr]
  cases hcall : s.call with
  | none =>
    rw [failedBy_of_none hcall]
    exact hsilent.trans (silent_handleFailedCall error fun c hc => by simp [hcall₁, hcall] at hc)
  | some c =>
    rw [failedBy_of_fails (by rw [input_of_some hcall]; exact h c hcall), hcall]
    exact hsilent.trans (tells_handleFailedCall (hcall₁.trans hcall) (herror c hcall))

/-- A guard of a handler that does not hold fails the current call. -/
theorem speaks_failAssertion (hr : s.reportedBy e = [])
    (h : ∀ c, s.call = some c → s.core.Fails (s.core.currentInput c e)) (description : String) :
    s.Speaks e (s.failAssertion description) :=
  speaks_handleFailedCall hr h (silent_of_log rfl) rfl fun _ _ => rfl

theorem speaks_of_silent (hr : s.reportedBy e = [])
    (h : ∀ c, s.call = some c → ¬ s.core.Fails (s.core.currentInput c e)) (hs : s.Silent s') :
    s.Speaks e s' := by
  unfold Speaks
  rw [hr]
  cases hcall : s.call with
  | none => rwa [failedBy_of_none hcall]
  | some c =>
    rwa [failedBy_of_input (input_of_some hcall e) (h c hcall)]

/-! ### Signaling messages -/

section
variable (hs : s.core.WellFormed)

theorem speaks_handleReceivedAnswer (id : UInt64) (sdp callerId : String) :
    s.Speaks (.received (.answer id sdp) callerId) (s.handleReceivedAnswer ⟨callerId⟩ id sdp) := by
  unfold handleReceivedAnswer
  cases hcall : s.call with
  | none => exact speaks_failAssertion rfl (by simp [hcall]) _
  | some c =>
    by_cases hid : (s.calls.get c).signalingId = id
    · have hinput : s.core.input (.received (.answer id sdp) callerId) = .answer := by
        simp [input_of_some hcall, Session.currentInput, Session.messageInput, hid]
      have hsent := silent_sendPendingIceUpdates s ⟨callerId⟩
      have hcore := core_sendPendingIceUpdates s ⟨callerId⟩
      simp only [if_neg (not_not.mpr hid)]
      generalize sendPendingIceUpdates _ _ = s₁ at hsent hcore ⊢
      have hcall₁ : s₁.call = some c := (congrArg Session.call hcore).trans hcall
      have hclient₁ : s₁.peerConnectionClient = s.peerConnectionClient :=
        congrArg Session.client hcore
      unfold Speaks
      cases hclient : s.peerConnectionClient with
      | none =>
        have hfails : s.core.Fails (s.core.input (.received (.answer id sdp) callerId)) :=
          .inr ⟨hclient, .inl hinput⟩
        rw [failedBy_of_fails hfails, hcall]
        simp only [hclient₁, hclient]
        have htells := tells_failAssertion s₁
          "peerConnectionClient was unexpectedly nil in handleReceivedAnswer(thread:callId:sessionDescription:)"
        rw [hcall₁] at htells
        exact hsent.trans htells
      | some client =>
        have hfails : ¬ s.core.Fails .answer := by simp [Session.Fails, hclient]
        rw [failedBy_of_input hinput hfails]
        simp only [hclient₁, hclient]
        exact (hsent.before rfl).emit rfl rfl
    · simp only [if_pos hid]
      refine speaks_failAssertion rfl (fun d hd => .inl ?_) _
      obtain rfl := Option.some.inj (hcall.symm.trans hd)
      simp [Session.currentInput, Session.messageInput, Ne.symm hid]

include hs in
theorem speaks_handleRemoteAddedIceCandidate (id : UInt64) (sdp : String) (sdpMlineIndex : UInt32)
    (lineIndex : Int32) (mid callerId : String) :
    s.Speaks (.received (.iceUpdate id sdp sdpMlineIndex mid) callerId)
      (s.handleRemoteAddedIceCandidate ⟨callerId⟩ id sdp lineIndex mid) := by
  unfold handleRemoteAddedIceCandidate
  cases hcall : s.call with
  | none =>
    simp only [thread_of_none hs hcall]
    exact speaks_failAssertion rfl (by simp [hcall]) _
  | some c =>
    have hfails (h : ¬(callerId = (s.calls.get c).remotePhoneNumber ∧
        id = (s.calls.get c).signalingId ∧ s.peerConnectionClient ≠ none)) (description : String) :
        s.Speaks (.received (.iceUpdate id sdp sdpMlineIndex mid) callerId)
          (s.failAssertion description) := by
      refine speaks_failAssertion rfl (fun d hd => .inl ?_) _
      obtain rfl := Option.some.inj (hcall.symm.trans hd)
      simp [Session.currentInput, Session.messageInput, h]
    simp only [thread_current hs hcall]
    split_ifs with hthread hid
    · exact hfails (fun h => hthread h.1) _
    · exact hfails (fun h => hid h.2.1.symm) _
    · cases hclient : s.peerConnectionClient with
      | none => exact hfails (fun h => h.2.2 hclient) _
      | some client =>
        refine speaks_of_silent rfl (fun d hd => ?_) ((silent_of_log rfl).emit rfl rfl)
        obtain rfl := Option.some.inj (hcall.symm.trans hd)
        simp only [ne_eq, not_not] at hthread hid
        simp [Session.Fails, Session.currentInput, Session.messageInput, hthread, hid, hclient]

/-- The two hang-ups report the end of the call in their own way. -/
theorem silent_handleRemoteHangup (s : State) (thread : TSContactThread)
    (h : s.thread ≠ none → s.call ≠ none) : s.Silent (s.handleRemoteHangup thread) := by
  unfold handleRemoteHangup
  split_ifs with hthread
  · exact silent_of_log rfl
  · cases hcall : s.call with
    | none =>
      refine absurd hcall (h fun hnone => hthread ?_)
      simp [hnone]
    | some c =>
      exact (((silent_handleMissedByHangup s c thread).silent
        (silent_setCallState _ c .remoteHangup)).emit rfl rfl).silent (silent_terminateCall _)

theorem speaks_handleRemoteBusy (id : UInt64) (callerId : String) :
    s.Speaks (.received (.busy id) callerId) (s.handleRemoteBusy ⟨callerId⟩) := by
  unfold handleRemoteBusy
  cases hcall : s.call with
  | none => exact speaks_failAssertion rfl (by simp [hcall]) _
  | some c =>
    refine speaks_of_silent rfl (fun d hd => ?_) ?_
    · simp [Session.Fails, Session.currentInput, Session.messageInput]
    · exact ((silent_setCallState s c .remoteBusy).emit rfl rfl).silent (silent_terminateCall _)

include hs in
theorem silent_remoteHangup (thread : TSContactThread) : s.Silent (s.handleRemoteHangup thread) :=
  silent_handleRemoteHangup s thread fun hthread hcall => hthread (thread_of_none hs hcall)

include hs in
theorem speaks_receivedMessage {message : CallMessage} {callerId : String}
    (h : s.receivedMessage message callerId = .ok s') :
    s.Speaks (.received message callerId) s' := by
  cases message with
  | answer id sdp =>
    obtain rfl := Except.ok.inj h
    exact speaks_handleReceivedAnswer id sdp callerId
  | iceUpdate id sdp sdpMlineIndex mid =>
    cases hline : int32FromUInt32 sdpMlineIndex with
    | error fault => simp [receivedMessage, hline, Except.map] at h
    | ok lineIndex =>
      simp only [receivedMessage, hline, Except.map] at h
      obtain rfl := Except.ok.inj h
      exact speaks_handleRemoteAddedIceCandidate hs id sdp sdpMlineIndex lineIndex mid callerId
  | hangup id =>
    obtain rfl := Except.ok.inj h
    refine speaks_of_silent rfl (fun c hcall => ?_) (silent_remoteHangup hs _)
    simp only [Session.currentInput, Session.messageInput]
    split_ifs <;> simp [Session.Fails]
  | busy id =>
    obtain rfl := Except.ok.inj h
    exact speaks_handleRemoteBusy id callerId

/-! ### Events of the peer connection client -/

theorem silent_handleConnectedCall {client : ClientRef}
    (hclient : s.peerConnectionClient = some client) : s.Silent (s.handleConnectedCall c) := by
  unfold handleConnectedCall
  simp only [hclient]
  exact ((silent_fulfill s).silent (silent_setCallState _ c .connected)).before rfl

include hs in
theorem speaks_handleDataChannelMessage {client : ClientRef}
    (hclient : s.peerConnectionClient = some client) (message : OWSWebRTCProtosData) :
    s.Speaks (.client client (.received message)) (s.handleDataChannelMessage message) := by
  unfold handleDataChannelMessage
  cases hcall : s.call with
  | none => exact speaks_failAssertion rfl (by simp [hcall]) _
  | some c =>
    have hinput (d : CallRef) (hd : s.call = some d) :
        s.core.currentInput d (.client client (.received message)) =
          Session.clientInput (s.calls.get c) (.received message) := by
      obtain rfl := Option.some.inj (hcall.symm.trans hd)
      simp [Session.currentInput, hclient]
    simp only
    cases hconnected : message.connected with
    | some id =>
      simp only
      split_ifs with hid
      · refine speaks_failAssertion rfl (fun d hd => .inl ?_) _
        rw [hinput d hd]
        simp [Session.clientInput, hconnected, hid]
      · refine speaks_of_silent rfl (fun d hd => ?_)
          (((silent_of_log rfl).emit rfl rfl).silent (silent_handleConnectedCall hclient))
        rw [hinput d hd]
        simp only [ne_eq, not_not] at hid
        simp [Session.Fails, Session.clientInput, hconnected, hid]
    | none =>
      cases hhangup : message.hangup with
      | some id =>
        simp only
        split_ifs with hid
        · refine speaks_failAssertion rfl (fun d hd => .inl ?_) _
          rw [hinput d hd]
          simp [Session.clientInput, hconnected, hhangup, hid]
        · simp only [thread_current hs hcall]
          refine speaks_of_silent rfl (fun d hd => ?_) (silent_remoteHangup hs _)
          rw [hinput d hd]
          simp only [ne_eq, not_not] at hid
          simp [Session.Fails, Session.clientInput, hconnected, hhangup, hid]
      | none =>
        refine speaks_of_silent rfl (fun d hd => ?_) ?_
        · rw [hinput d hd]
          simp [Session.Fails, Session.clientInput, hconnected, hhangup]
        · cases message.videoStreamingStatus <;> exact silent_of_log rfl

include hs in
theorem speaks_handleLocalAddedIceCandidate {client : ClientRef}
    (hclient : s.peerConnectionClient = some client) (candidate : RTCIceCandidate) :
    s.Speaks (.client client (.addedLocalIceCandidate candidate))
      (s.handleLocalAddedIceCandidate candidate) := by
  unfold handleLocalAddedIceCandidate
  cases hcall : s.call with
  | none => exact speaks_failAssertion rfl (by simp [hcall]) _
  | some c =>
    have hidle : (s.calls.get c).state ≠ .idle := hs.notIdle c
    simp only [if_neg hidle, thread_current hs hcall]
    refine speaks_of_silent rfl (fun d hd => ?_) ?_
    · simp [Session.Fails, Session.currentInput, hclient, Session.clientInput]
    · split_ifs
      · exact (silent_of_log rfl).emit rfl rfl
      · exact silent_of_log rfl

include hs in
theorem speaks_handleIceConnected {client : ClientRef}
    (hclient : s.peerConnectionClient = some client) :
    s.Speaks (.client client .iceConnected) s.handleIceConnected := by
  have hinput : ∀ c, s.call = some c → s.core.input (.client client .iceConnected) = .other := by
    intro c hcall
    simp [input_of_some hcall, Session.currentInput, hclient, Session.clientInput]
  have hother : ¬ s.core.Fails .other := by simp [Session.Fails]
  unfold handleIceConnected Speaks
  cases hcall : s.call with
  | none =>
    have htells := tells_failAssertion s s!"{TAG} ignoring handleIceConnected() since there is no current call."
    rw [failedBy_of_none hcall, reportedBy, hcall]
    rwa [hcall] at htells
  | some c =>
    rw [failedBy_of_input (hinput c hcall) hother]
    simp only [thread_current hs hcall, reportedBy, hcall, hclient, true_and]
    cases hstate : (s.calls.get c).state with
    | dialing => exact silent_setCallState s c .remoteRinging
    | answering =>
      exact (silent_setCallState s c .localRinging).trans (tells_emit _ (.reportIncomingCall c _))
    | _ => exact silent_of_log rfl

/-- An event of another client says nothing. -/
theorem speaks_ifCurrentClient {client : ClientRef} {event : ClientEvent}
    {handler : State → State}
    (h : s.peerConnectionClient = some client → s.Speaks (.client client event) (handler s)) :
    s.Speaks (.client client event) (s.ifCurrentClient client handler) := by
  unfold ifCurrentClient
  split_ifs with hclient
  · exact h hclient
  · refine speaks_of_silent ?_ (fun c hcall => ?_) (silent_of_log rfl)
    · cases event with
      | iceConnected =>
        simp only [reportedBy, hclient, false_and, if_false]
        cases s.call <;> rfl
      | _ => rfl
    · simp [Session.Fails, Session.currentInput, hclient]

include hs in
theorem speaks_clientEvent (client : ClientRef) (event : ClientEvent) :
    s.Speaks (.client client event) (s.clientEvent client event) := by
  cases event with
  | iceConnected => exact speaks_ifCurrentClient (speaks_handleIceConnected hs)
  | iceFailed =>
    refine speaks_ifCurrentClient fun hclient =>
      speaks_handleFailedCall rfl (fun c hcall => .inl ?_) (silent_of_log rfl) rfl fun _ _ => rfl
    simp [Session.currentInput, hclient, Session.clientInput]
  | addedLocalIceCandidate candidate =>
    exact speaks_ifCurrentClient (speaks_handleLocalAddedIceCandidate hs · candidate)
  | received message =>
    exact speaks_ifCurrentClient (speaks_handleDataChannelMessage hs · message)
  | didUpdateLocal videoTrack =>
    refine speaks_ifCurrentClient fun hclient =>
      speaks_of_silent rfl (fun c hcall => ?_) (silent_of_log rfl)
    simp [Session.Fails, Session.currentInput, hclient, Session.clientInput]
  | didUpdateRemote videoTrack =>
    refine speaks_ifCurrentClient fun hclient =>
      speaks_of_silent rfl (fun c hcall => ?_) (silent_of_log rfl)
    simp [Session.Fails, Session.currentInput, hclient, Session.clientInput]

/-! ### Calls that begin -/

theorem silent_handleOutgoingCall (s : State) (c : CallRef) : s.Silent (s.handleOutgoingCall c) := by
  unfold handleOutgoingCall
  cases s.call with
  | some d => exact silent_setCallState s c .localFailure
  | none =>
    dsimp only
    have hset := silent_setCall s (some c)
    generalize s.setCall (some c) = s₁ at hset ⊢
    have hcleared : s₁.Silent { s₁ with
        thread := some ⟨(s₁.calls.get c).remotePhoneNumber⟩
        sendIceUpdatesImmediately := false
        pendingIceUpdateMessages := [] } := silent_of_log rfl
    have hrecord := hcleared.silent (silent_insertCallRecord _ c
      (s₁.calls.get c).remotePhoneNumber .outgoingIncomplete ⟨(s₁.calls.get c).remotePhoneNumber⟩)
    generalize insertCallRecord _ c _ _ _ = s₂ at hrecord ⊢
    cases s₂.peerConnectionClient with
    | none => exact (hset.trans hrecord).before rfl
    | some client => exact (hset.trans hrecord).silent (silent_setCallState s₂ c .localFailure)

theorem silent_handleReceivedOffer (s : State) (thread : TSContactThread) (id : UInt64)
    (sdp : String) (hasOngoingRedphoneCall : Bool) :
    s.Silent (s.handleReceivedOffer thread id sdp hasOngoingRedphoneCall) := by
  unfold handleReceivedOffer
  dsimp only
  split_ifs
  · exact (((silent_of_log rfl).emit rfl rfl).trans
      (silent_handleMissedCall _ s.calls.next thread)).after rfl
  · exact ((silent_setCall _ (some s.calls.next)).before rfl).after rfl

/-! ### User actions -/

include hs in
theorem speaks_handleAnswerCall (hr : s.reportedBy e = [])
    (hinput : ∀ d, s.call = some d → c = d → s.core.currentInput d e = .userAnswers)
    (hother : ∀ d, s.call = some d → c ≠ d → ¬ s.core.Fails (s.core.currentInput d e)) :
    s.Speaks e (s.handleAnswerCall c) := by
  unfold handleAnswerCall
  cases hcall : s.call with
  | none => exact speaks_failAssertion hr (by simp [hcall]) _
  | some d =>
    simp only
    split_ifs with hd
    · refine speaks_of_silent hr (fun d' hd' => ?_) (silent_of_log rfl)
      obtain rfl := Option.some.inj (hcall.symm.trans hd')
      exact hother d hcall hd
    · have hcd : c = d := not_not.mp hd
      simp only [thread_current hs hcall]
      cases hclient : s.peerConnectionClient with
      | none =>
        refine speaks_failAssertion hr (fun d' hd' => .inr ⟨hclient, .inr (.inl ?_)⟩) _
        obtain rfl := Option.some.inj (hcall.symm.trans hd')
        exact hinput d hcall hcd
      | some client =>
        have hrecord := silent_insertCallRecord s c (s.calls.get c).remotePhoneNumber
          .incomingIncomplete ⟨(s.calls.get d).remotePhoneNumber⟩
        have hinsert := core_insertCallRecord s c (s.calls.get c).remotePhoneNumber
          .incomingIncomplete ⟨(s.calls.get d).remotePhoneNumber⟩
        refine speaks_of_silent hr (fun d' hd' => ?_) ((hrecord.emit rfl rfl).silent
          (silent_handleConnectedCall ((congrArg Session.client hinsert).trans hclient)))
        obtain rfl := Option.some.inj (hcall.symm.trans hd')
        rw [hinput d hcall hcd]
        simp [Session.Fails, hclient]

include hs in
theorem speaks_handleLocalHungupCall (hr : s.reportedBy e = [])
    (hinput : ∀ d, s.call = some d →
      s.core.currentInput d e = if c = d then .userDeclines else .failure) :
    s.Speaks e (s.handleLocalHungupCall c) := by
  unfold handleLocalHungupCall
  cases hcall : s.call with
  | none => exact speaks_failAssertion hr (by simp [hcall]) _
  | some d =>
    simp only
    split_ifs with hd
    · refine speaks_failAssertion hr (fun d' hd' => .inl ?_) _
      obtain rfl := Option.some.inj (hcall.symm.trans hd')
      simp [hinput d hcall, hd]
    · have hcd : c = d := not_not.mp hd
      cases hclient : s.peerConnectionClient with
      | none =>
        refine speaks_failAssertion hr (fun d' hd' => .inr ⟨hclient, .inr (.inr ?_)⟩) _
        obtain rfl := Option.some.inj (hcall.symm.trans hd')
        simp [hinput d hcall, hcd]
      | some client =>
        simp only [thread_current hs hcall]
        refine speaks_of_silent hr (fun d' hd' => ?_)
          ((((silent_setCallState s c .localHangup).emit rfl rfl).emit rfl rfl).silent
            (silent_terminateCall _))
        obtain rfl := Option.some.inj (hcall.symm.trans hd')
        simp [hinput d hcall, hcd, Session.Fails, hclient]

theorem speaks_withLocalId (hr : s.reportedBy e = []) (function : String)
    {handler : State → CallRef → State} (h : s.call = some c → s.Speaks e (handler s c))
    (hinput : ∀ d, s.call = some d → c ≠ d → s.core.currentInput d e = .failure) :
    s.Speaks e (s.withLocalId c function handler) := by
  unfold withLocalId
  cases hcall : s.call with
  | none => exact speaks_failAssertion hr (by simp [hcall]) _
  | some d =>
    simp only
    split_ifs with hd
    · refine speaks_failAssertion hr (fun d' hd' => .inl ?_) _
      obtain rfl := Option.some.inj (hcall.symm.trans hd')
      exact hinput d hcall (Ne.symm hd)
    · obtain rfl : d = c := not_not.mp hd
      exact h hcall

theorem speaks_setIsMuted (isMuted : Bool) :
    s.Speaks (.user (.setIsMuted isMuted)) (s.setIsMuted isMuted) := by
  unfold setIsMuted
  cases hclient : s.peerConnectionClient with
  | none =>
    refine speaks_failAssertion rfl (fun c hcall => .inl ?_) _
    simp [Session.currentInput, Session.userInput, hclient]
  | some client =>
    cases hcall : s.call with
    | none => exact speaks_failAssertion rfl (by simp [hcall]) _
    | some c =>
      refine speaks_of_silent rfl (fun d hd => ?_) (silent_of_log rfl)
      simp [Session.Fails, Session.currentInput, Session.userInput, hclient]

theorem speaks_setHasLocalVideo (hr : s.reportedBy e = []) (isAuthorized hasLocalVideo : Bool)
    (hinput : ∀ c, s.call = some c → s.core.currentInput c e =
      if isAuthorized ∧ s.peerConnectionClient = none then .failure else .other) :
    s.Speaks e (s.setHasLocalVideo isAuthorized hasLocalVideo) := by
  have hother (c : CallRef) (hcall : s.call = some c)
      (h : ¬(isAuthorized = true ∧ s.peerConnectionClient = none)) :
      ¬ s.core.Fails (s.core.currentInput c e) := by
    rw [hinput c hcall, if_neg h]
    simp [Session.Fails]
  unfold setHasLocalVideo
  cases isAuthorized with
  | false => exact speaks_of_silent hr (fun c hcall => hother c hcall (by simp)) (silent_of_log rfl)
  | true =>
    simp only [Bool.not_true, Bool.false_eq_true, if_false]
    cases hclient : s.peerConnectionClient with
    | none =>
      refine speaks_failAssertion hr (fun c hcall => .inl ?_) _
      rw [hinput c hcall, if_pos ⟨rfl, hclient⟩]
    | some client =>
      cases hcall : s.call with
      | none => exact speaks_failAssertion hr (by simp [hcall]) _
      | some c =>
        exact speaks_of_silent hr (fun d hd => hother d hd (by simp [hclient]))
          ((silent_setCallHasLocalVideo s c hasLocalVideo).before rfl)

theorem silent_createCallUIAdapter (s : State) : s.Silent s.createCallUIAdapter := by
  unfold createCallUIAdapter
  split_ifs
  · exact silent_terminateCall s
  · exact silent_of_log rfl

include hs in
theorem speaks_userAction {action : UserAction} (h : s.userAction action = some s') :
    s.Speaks (.user action) s' := by
  have hother {i : Input} (hi : i ∈ [Input.other, .reset]) : ¬ s.core.Fails i := by
    rcases List.mem_pair.mp hi with rfl | rfl <;> simp [Session.Fails]
  cases action with
  | newOutgoingCall handle signalingId =>
    obtain rfl := Option.some.inj h
    exact speaks_of_silent rfl (fun _ _ => hother (by simp [Session.currentInput, Session.userInput]))
      (silent_of_log rfl)
  | handleOutgoingCall c =>
    simp only [userAction] at h
    split_ifs at h
    obtain rfl := Option.some.inj h
    exact speaks_of_silent rfl (fun _ _ => hother (by simp [Session.currentInput, Session.userInput]))
      ((silent_handleOutgoingCall _ c).after rfl)
  | handleAnswerCall c =>
    obtain rfl := Option.some.inj h
    exact speaks_handleAnswerCall hs rfl (fun d _ hd => if_pos hd) fun d _ hd =>
      hother (by simp [Session.currentInput, Session.userInput, hd])
  | handleAnswerCallWithLocalId c =>
    obtain rfl := Option.some.inj h
    refine speaks_withLocalId rfl _ (fun hcall => ?_) fun d _ hd => if_neg hd
    refine speaks_handleAnswerCall hs rfl (fun d _ hd => if_pos hd) fun d hd hne => ?_
    exact absurd (Option.some.inj (hcall.symm.trans hd)) hne
  | handleDeclineCall c =>
    obtain rfl := Option.some.inj h
    exact speaks_handleLocalHungupCall hs rfl fun _ _ => rfl
  | handleDeclineCallWithLocalId c =>
    obtain rfl := Option.some.inj h
    exact speaks_withLocalId rfl _ (fun _ => speaks_handleLocalHungupCall hs rfl fun _ _ => rfl)
      fun d _ hd => if_neg hd
  | handleLocalHungupCall c =>
    obtain rfl := Option.some.inj h
    exact speaks_handleLocalHungupCall hs rfl fun _ _ => rfl
  | setIsMuted isMuted =>
    obtain rfl := Option.some.inj h
    exact speaks_setIsMuted isMuted
  | setHasLocalVideo isAuthorized hasLocalVideo =>
    obtain rfl := Option.some.inj h
    exact speaks_setHasLocalVideo rfl _ _ fun _ _ => rfl
  | handleCallKitStartVideo isAuthorized =>
    obtain rfl := Option.some.inj h
    exact speaks_setHasLocalVideo rfl _ _ fun _ _ => rfl
  | createCallUIAdapter =>
    obtain rfl := Option.some.inj h
    exact speaks_of_silent rfl (fun _ _ => hother (by simp [Session.currentInput, Session.userInput]))
      (silent_createCallUIAdapter s)
  | providerDidReset =>
    obtain rfl := Option.some.inj h
    exact speaks_handleFailedCall rfl (fun _ _ => .inl rfl) (silent_of_log rfl) rfl fun _ _ => rfl

/-! ### Continuations -/

theorem silent_guardCurrent {rest : State} (hrest : s.Silent rest) (description : String) :
    s.Silent (s.guardCurrent c description rest) := by
  unfold guardCurrent
  split_ifs
  · exact hrest
  · exact silent_of_log rfl

/-- The continuations that do not fail the current call are silent. -/
theorem speaks_continuation_of_silent {k : Continuation}
    (hk : ∀ d, s.core.continuationInput d c k = .other) (h : s.Silent s') :
    s.Speaks (.continuation c k) s' := by
  refine speaks_of_silent rfl (fun d _ => ?_) h
  rw [Session.currentInput, hk]
  simp [Session.Fails]

theorem speaks_handleFailedCall_caught {error : Error} (hsetUp : s.setUp c = .failed error)
    (hc : ∀ d, s.call = some d → (s.calls.get c).direction = .outgoing ∨ c = d) :
    s.Speaks (.continuation c .caught)
      ((s.setSetUp c .caught).handleFailedCall error.asCallError) := by
  have hinput (d : CallRef) (hd : s.call = some d) :
      s.core.currentInput d (.continuation c .caught) =
        if error.asCallError.isTimeoutOfOther d = false then .failure else .other := by
    simp [Session.currentInput, Session.continuationInput, hsetUp, hc d hd]
  by_cases htimeout : ∀ d, s.call = some d → error.asCallError.isTimeoutOfOther d = false
  · have hcaught : s.Silent (s.setSetUp c .caught) := silent_of_log rfl
    refine speaks_handleFailedCall rfl (fun d hd => .inl ?_) hcaught rfl htimeout
    rw [hinput d hd, if_pos (htimeout d hd)]
  · push Not at htimeout
    obtain ⟨d, hd, htimeout⟩ := htimeout
    have htimeout : error.asCallError.isTimeoutOfOther d = true := by simpa using htimeout
    refine speaks_of_silent rfl (fun d' hd' => ?_) ?_
    · obtain rfl := Option.some.inj (hd.symm.trans hd')
      rw [hinput d hd, if_neg (by simp [htimeout])]
      simp [Session.Fails]
    · refine (silent_handleFailedCall _ fun d' hd' => ?_).after rfl
      obtain rfl := Option.some.inj (hd.symm.trans hd')
      exact htimeout

theorem speaks_incomingCatch {error : Error} (hsetUp : s.setUp c = .failed error)
    (hdirection : (s.calls.get c).direction = .incoming) :
    s.Speaks (.continuation c .caught) (s.incomingCatch c error) := by
  unfold incomingCatch
  dsimp only
  split_ifs with hcall
  · exact speaks_handleFailedCall_caught hsetUp fun d hd =>
      .inr (Option.some.inj (Eq.trans hcall.symm hd))
  · refine speaks_of_silent rfl (fun d hd => ?_) (silent_of_log rfl)
    have hne : c ≠ d := fun hcd => hcall (hcd ▸ hd)
    simp [Session.Fails, Session.currentInput, Session.continuationInput, hsetUp, hdirection, hne]

theorem speaks_backgroundTimeout : s.Speaks (.continuation c .backgroundTimeout)
    ((s.setBackgroundTask c .ended).backgroundTimeout c) := by
  unfold backgroundTimeout
  split_ifs with hcall
  · have hcall : s.call = some c := hcall
    refine speaks_handleFailedCall (e := .continuation c .backgroundTimeout) rfl
      (fun d hd => .inl ?_) (silent_of_log rfl) rfl fun d hd => ?_
    · obtain rfl := Option.some.inj (hcall.symm.trans hd)
      simp [Session.currentInput, Session.continuationInput]
    · obtain rfl := Option.some.inj (hcall.symm.trans hd)
      simp [CallError.isTimeoutOfOther]
  · refine speaks_of_silent (e := .continuation c .backgroundTimeout) rfl (fun d hd => ?_)
      (silent_of_log rfl)
    have hne : c ≠ d := fun hcd => hcall (hcd ▸ hd)
    simp [Session.Fails, Session.currentInput, Session.continuationInput, hne]

theorem speaks_continuation {k : Continuation} (h : s.continuation c k = some (.ok s')) :
    s.Speaks (.continuation c k) s' := by
  have hother (hk : ∀ d, s.core.continuationInput d c k = .other) (hs' : s.Silent s') :
      s.Speaks (.continuation c k) s' := speaks_continuation_of_silent hk hs'
  cases continues_of_continuation h with
  | outgoingIceServers => exact hother (fun _ => rfl) (silent_of_log rfl)
  | incomingIceServers =>
    refine hother (fun _ => rfl) (silent_guardCurrent ?_ _)
    exact ((silent_of_log rfl).emit rfl rfl).before rfl
  | offer | localDescription =>
    exact hother (fun _ => rfl) (((silent_of_log rfl).emit rfl rfl).before rfl)
  | negotiated =>
    refine hother (fun _ => rfl) (silent_guardCurrent ?_ _)
    exact ((silent_of_log rfl).emit rfl rfl).before rfl
  | incomingSent =>
    refine hother (fun _ => rfl) (silent_guardCurrent ?_ _)
    exact silent_of_log rfl
  | outgoingCaught hsetUp hdirection =>
    exact speaks_handleFailedCall_caught hsetUp fun _ _ => .inl hdirection
  | incomingCaught hsetUp hdirection => exact speaks_incomingCatch hsetUp hdirection
  | finished =>
    refine hother (fun _ => rfl) (silent_of_log ?_)
    unfold endBackgroundTask
    split_ifs <;> rfl
  | remoteDescriptionRejected error =>
    exact speaks_handleFailedCall rfl (fun _ _ => .inl rfl) (silent_of_log rfl) rfl fun _ _ => rfl
  | backgroundTimeout => exact speaks_backgroundTimeout
  -- the others do not tell the call UI anything
  | outgoingSent | rejected | connectingTimeout | remoteDescription | messageSettled
  | backgroundTaskExpired => exact hother (fun _ => rfl) (silent_of_log rfl)

include hs in
/-- What one turn of the call service tells the call UI. -/
theorem speaks_next (h : s.next e = some s') : s.Speaks e s' := by
  obtain ⟨result, hturn, hresult⟩ := Option.bind_eq_some_iff.mp h
  obtain rfl : result = .ok s' := by
    cases result with
    | error fault => cases hresult
    | ok s₁ => rw [Option.some.inj hresult]
  have hother (d : CallRef) (he : s.core.currentInput d e = .other) :
      ¬ s.core.Fails (s.core.currentInput d e) := by simp [he, Session.Fails]
  cases e with
  | receivedOffer id sdp callerId hasOngoingRedphoneCall =>
    obtain rfl := Except.ok.inj (Option.some.inj hturn)
    exact speaks_of_silent rfl (fun d _ => hother d rfl)
      (silent_handleReceivedOffer s _ id sdp _)
  | received message callerId => exact speaks_receivedMessage hs (Option.some.inj hturn)
  | client client event =>
    obtain rfl := Except.ok.inj (Option.some.inj hturn)
    exact speaks_clientEvent hs client event
  | user action =>
    obtain ⟨s₁, haction, hs₁⟩ := Option.map_eq_some_iff.mp hturn
    obtain rfl := Except.ok.inj hs₁
    exact speaks_userAction hs haction
  | continuation c k => exact speaks_continuation hturn
  | didEnterBackground | didBecomeActive =>
    obtain rfl := Except.ok.inj (Option.some.inj hturn)
    exact speaks_of_silent rfl (fun d _ => hother d rfl)
      ((silent_updateIsVideoEnabled _).after rfl)

include hs in
/-- A call that a turn reports was answering, and now rings. -/
theorem reportedBy_cases (h : s.next e = some s') (hc : c ∈ s.reportedBy e) :
    s.reportedBy e = [c] ∧ s.call = some c ∧ (s.calls.get c).state = .answering ∧
      (s'.calls.get c).state = .localRinging := by
  obtain ⟨client, rfl⟩ : ∃ client, e = .client client .iceConnected := by
    cases e with
    | client client event =>
      cases event with
      | iceConnected => exact ⟨client, rfl⟩
      | _ => cases hc
    | _ => cases hc
  cases hcall : s.call with
  | none => simp [reportedBy, hcall] at hc
  | some d =>
    simp only [reportedBy, hcall] at hc
    split_ifs at hc with hring
    · obtain ⟨hclient, hstate⟩ := hring
      obtain rfl := List.mem_singleton.mp hc
      have hreported : s.reportedBy (.client client .iceConnected) = [c] := by
        simp [reportedBy, hcall, hclient, hstate]
      have hs' : s' = (s.setCallState c .localRinging).emit
          (.reportIncomingCall c ⟨(s.calls.get c).remotePhoneNumber⟩) := by
        have hnext : s.clientEvent client .iceConnected = s' := Option.some.inj h
        rw [← hnext]
        simp [clientEvent, peerConnectionClientIceConnected, ifCurrentClient, handleIceConnected,
          hclient, hcall, thread_current hs hcall, hstate]
      have hcore : s'.core = s.core.ring c .localRinging := by
        rw [hs', core_emit _ rfl rfl,
          core_setCallState_of_ne hcall (observers_current hs hcall) (by simp)]
      refine ⟨hreported, rfl, hstate, ?_⟩
      have hcalls := congrArg Session.calls hcore
      rw [core_calls] at hcalls
      simp [hcalls]
    · cases hc

end
end State
end SignalIOS.Call
