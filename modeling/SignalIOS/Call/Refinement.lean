import SignalIOS.Call.Continuations
import SignalIOS.Call.Core

/-! Every turn of the call service is a transition of its session. -/
namespace SignalIOS.Call
open SignalIOS.Lib

namespace State
variable {s : State} {c : CallRef}

section
variable (hs : s.core.WellFormed)
include hs

theorem observers_current (hcall : s.call = some c) :
    (s.calls.get c).observers = [.callService] := by
  have := hs.observers c
  rwa [core_call, hcall, if_pos rfl] at this

theorem core_handleFailedCall (hcall : s.call = some c) {error : CallError}
    (herror : error.isTimeoutOfOther c = false) :
    (s.handleFailedCall error).core = s.core.fail c error := by
  have hobservers := observers_current hs hcall
  simp only [handleFailedCall, hcall, herror, Bool.false_eq_true, if_false]
  rw [core_end (s := s.setCallError c error) hcall (by simpa [setCallError] using hobservers)
    (by simp) rfl rfl]
  simp only [Session.fail, Session.finish, setCallError, core_calls]
  rw [Heap.modify_modify]
  rfl

/-- A handler that fails the current call, if there is one. -/
theorem turn_handleFailedCall (e : Event) {error : CallError}
    (herror : ∀ c, s.call = some c → error.isTimeoutOfOther c = false)
    (hi : ∀ c, s.call = some c → s.core.input e = .failure ∨
      s.peerConnectionClient = none ∧
        (s.core.input e = .userAnswers ∨ s.core.input e = .userDeclines)) :
    s.core.Turn e (s.core.input e) (s.handleFailedCall error).core := by
  cases hcall : s.call with
  | none =>
    have hinput : s.core.input e = .other := by simp [Session.input, hcall]
    rw [core_handleFailedCall_of_none hcall, hinput]
    exact .ended (.cleared e hcall)
  | some c =>
    rw [core_handleFailedCall hs hcall (herror c hcall)]
    exact .ended (.failed e _ error hcall (hi c hcall))

theorem turn_failAssertion (e : Event) (description : String)
    (hi : ∀ c, s.call = some c → s.core.input e = .failure ∨
      s.peerConnectionClient = none ∧
        (s.core.input e = .userAnswers ∨ s.core.input e = .userDeclines)) :
    s.core.Turn e (s.core.input e) (s.failAssertion description).core :=
  turn_handleFailedCall hs e (fun _ _ => rfl) hi

/-! ### Signaling messages -/

theorem turn_handleReceivedAnswer (id : UInt64) (sdp callerId : String) :
    s.core.Turn (.received (.answer id sdp) callerId)
      (s.core.input (.received (.answer id sdp) callerId))
      (s.handleReceivedAnswer ⟨callerId⟩ id sdp).core := by
  unfold handleReceivedAnswer
  cases hcall : s.call with
  | none => exact turn_failAssertion hs _ _ (by simp [hcall])
  | some c =>
    by_cases hid : (s.calls.get c).signalingId = id
    · have hinput : s.core.input (.received (.answer id sdp) callerId) = .answer := by
        simp [input_of_some hcall, Session.currentInput, Session.messageInput, hid]
      have hsend := core_sendPendingIceUpdates s ⟨callerId⟩
      simp only [if_neg (not_not.mpr hid), hinput]
      generalize sendPendingIceUpdates _ _ = s₁ at hsend ⊢
      have hcall₁ : s₁.call = some c := (congrArg Session.call hsend).trans hcall
      have hclient₁ : s₁.peerConnectionClient = s.peerConnectionClient :=
        congrArg Session.client hsend
      cases hclient : s.peerConnectionClient with
      | none =>
        simp only [hclient₁, hclient]
        rw [failAssertion, core_handleFailedCall (hsend ▸ hs.sendPending) hcall₁ rfl, hsend]
        exact .ended (.answerFailed _ _ hcall hclient)
      | some client =>
        simp only [hclient₁, hclient]
        rw [core_emit _ rfl rfl]
        have hcore :
            { s₁ with remoteDescriptions := c :: s₁.remoteDescriptions }.core = s₁.core := rfl
        rw [hcore, hsend]
        exact .answerReceived _ hcall (by simp [hclient])
    · simp only [if_pos hid]
      refine turn_failAssertion hs _ _ fun c' hc' => .inl ?_
      simp [input_of_some hcall, Session.currentInput, Session.messageInput, Ne.symm hid]

theorem thread_current (hcall : s.call = some c) :
    s.thread = some ⟨(s.calls.get c).remotePhoneNumber⟩ := by
  have := hs.thread
  rwa [core_call, hcall] at this

theorem thread_of_none (hcall : s.call = none) : s.thread = none := by
  have := hs.thread
  rwa [core_call, hcall] at this

theorem turn_handleRemoteAddedIceCandidate (id : UInt64) (sdp : String) (sdpMlineIndex : UInt32)
    (lineIndex : Int32) (mid callerId : String) :
    s.core.Turn (.received (.iceUpdate id sdp sdpMlineIndex mid) callerId)
      (s.core.input (.received (.iceUpdate id sdp sdpMlineIndex mid) callerId))
      (s.handleRemoteAddedIceCandidate ⟨callerId⟩ id sdp lineIndex mid).core := by
  unfold handleRemoteAddedIceCandidate
  cases hcall : s.call with
  | none =>
    simp only [thread_of_none hs hcall]
    exact turn_failAssertion hs _ _ (by simp [hcall])
  | some c =>
    have hinput (h : ¬(callerId = (s.calls.get c).remotePhoneNumber ∧
        id = (s.calls.get c).signalingId ∧ s.peerConnectionClient ≠ none)) (description : String) :
        s.core.Turn (.received (.iceUpdate id sdp sdpMlineIndex mid) callerId)
          (s.core.input (.received (.iceUpdate id sdp sdpMlineIndex mid) callerId))
          (s.failAssertion description).core := by
      refine turn_failAssertion hs _ _ fun c' hc' => .inl ?_
      simp [input_of_some hcall, Session.currentInput, Session.messageInput, h]
    simp only [thread_current hs hcall]
    split_ifs with hthread hid
    · exact hinput (fun h => hthread h.1) _
    · exact hinput (fun h => hid h.2.1.symm) _
    · cases hclient : s.peerConnectionClient with
      | none => exact hinput (fun h => h.2.2 hclient) _
      | some client =>
        have hother : s.core.input (.received (.iceUpdate id sdp sdpMlineIndex mid) callerId) =
            .other := by
          simp only [ne_eq, not_not] at hthread hid
          simp [input_of_some hcall, Session.currentInput, Session.messageInput, hthread, hid,
            hclient]
        rw [core_emit _ rfl rfl, hother]
        exact .idle _

/-- The two hang-ups, by a signaling message and on the data channel, end the current call. -/
theorem turn_handleRemoteHangup (e : Event) (hcall : s.call = some c) :
    s.core.Turn e .remoteHangup
      (s.handleRemoteHangup ⟨(s.calls.get c).remotePhoneNumber⟩).core := by
  have hobservers := observers_current hs hcall
  have hmissed := core_handleMissedByHangup s c
  unfold handleRemoteHangup
  simp only [thread_current hs hcall, Option.map_some, ne_eq, not_true_eq_false, if_false, hcall]
  generalize s.handleMissedByHangup c _ = s₁ at hmissed ⊢
  have hcall₁ : s₁.core.call = some c := by
    rw [hmissed]
    split_ifs <;> exact hcall
  have hwf₁ : s₁.core.WellFormed := by
    rw [hmissed]
    split_ifs
    · exact hs.miss hcall
    · exact hs
  rw [core_end hcall₁ (observers_current hwf₁ hcall₁) (by simp) rfl rfl, hmissed]
  split_ifs with hstate
  · exact .ended (.missed e hcall hstate)
  · exact .ended (.remoteHangup e hcall (by simpa using hstate))

theorem turn_handleRemoteBusy (id : UInt64) (callerId : String) :
    s.core.Turn (.received (.busy id) callerId) (s.core.input (.received (.busy id) callerId))
      (s.handleRemoteBusy ⟨callerId⟩).core := by
  unfold handleRemoteBusy
  cases hcall : s.call with
  | none => exact turn_failAssertion hs _ _ (by simp [hcall])
  | some c =>
    have hinput : s.core.input (.received (.busy id) callerId) = .remoteBusy := by
      simp [input_of_some hcall, Session.currentInput, Session.messageInput]
    simp only [hinput]
    rw [core_end hcall (observers_current hs hcall) (by simp) rfl rfl]
    exact .ended (.remoteBusy _ hcall)

/-- A message of `WebRTCCallMessageHandler`. -/
theorem turn_receivedMessage {message : CallMessage} {callerId : String} {s' : State}
    (h : s.receivedMessage message callerId = .ok s') :
    s.core.Turn (.received message callerId) (s.core.input (.received message callerId))
      s'.core := by
  cases message with
  | answer id sdp =>
    obtain rfl := Except.ok.inj h
    exact turn_handleReceivedAnswer hs id sdp callerId
  | iceUpdate id sdp sdpMlineIndex mid =>
    cases hline : int32FromUInt32 sdpMlineIndex with
    | error fault => simp [receivedMessage, hline, Except.map] at h
    | ok lineIndex =>
      simp only [receivedMessage, hline, Except.map] at h
      obtain rfl := Except.ok.inj h
      exact turn_handleRemoteAddedIceCandidate hs id sdp sdpMlineIndex lineIndex mid callerId
  | hangup id =>
    obtain rfl := Except.ok.inj h
    cases hcall : s.call with
    | none =>
      have hinput : s.core.input (.received (.hangup id) callerId) = .other := by
        simp [Session.input, hcall]
      simp only [handleRemoteHangup, thread_of_none hs hcall, hinput]
      exact .idle _
    | some c =>
      by_cases hcaller : callerId = (s.calls.get c).remotePhoneNumber
      · have hinput : s.core.input (.received (.hangup id) callerId) = .remoteHangup := by
          simp [input_of_some hcall, Session.currentInput, Session.messageInput, hcaller]
        rw [hinput]
        exact hcaller ▸ turn_handleRemoteHangup hs _ hcall
      · have hinput : s.core.input (.received (.hangup id) callerId) = .other := by
          simp [input_of_some hcall, Session.currentInput, Session.messageInput, hcaller]
        have hidle : s.handleRemoteHangup ⟨callerId⟩ = s := by
          simp [handleRemoteHangup, thread_current hs hcall, Ne.symm hcaller]
        rw [hinput, hidle]
        exact .idle _
  | busy id =>
    obtain rfl := Except.ok.inj h
    exact turn_handleRemoteBusy hs id callerId

/-! ### Connecting -/

theorem core_handleConnectedCall {client : ClientRef} (hcall : s.call = some c)
    (hclient : s.peerConnectionClient = some client) :
    (s.handleConnectedCall c).core = s.core.connect c client := by
  have hobservers := observers_current hs hcall
  unfold handleConnectedCall
  have hfulfill := core_fulfill s
  simp only [hclient]
  generalize s.fulfill = s₁ at hfulfill ⊢
  have hcalls₁ : s₁.calls = s.calls := congrArg Session.calls hfulfill
  have hstate := core_setCallState (s := s₁) (c := c) (by rw [hcalls₁, hobservers]) .connected
  rw [hfulfill, Session.setCallState_connected hcall hclient] at hstate
  generalize s₁.setCallState c .connected = s₂ at hstate ⊢
  calc ((s₂.setAudioEnabled client _).setLocalVideoEnabled client _).core
      = { s₂.core with
          clients := (s₂.core.clients.modify client fun k =>
            { k with audioEnabled := some !(s₂.core.calls.get c).isMuted }).modify client
              (Session.requestVideo s₂.core.video) } := rfl
    _ = s.core.connect c client := by
      rw [hstate]
      simp only [Session.video, core_call, hcall, core_calls, Heap.get_modify_self,
        Heap.modify_modify, beq_self_eq_true, Bool.true_and]
      rw [← hcall]
      rfl

/-- Answering records the call, and connects it. -/
theorem core_answer {client : ClientRef} (hcall : s.call = some c)
    (hclient : s.peerConnectionClient = some client) {effect : Effect}
    (hice : effect.iceUpdates = []) (hmissed : effect.missed = []) :
    (((s.insertCallRecord c (s.calls.get c).remotePhoneNumber .incomingIncomplete
      ⟨(s.calls.get c).remotePhoneNumber⟩).emit effect).handleConnectedCall c).core =
      s.core.answer c client := by
  have hinsert : (s.insertCallRecord c (s.calls.get c).remotePhoneNumber .incomingIncomplete
      ⟨(s.calls.get c).remotePhoneNumber⟩).core = (s.core.record c).recordConnected c :=
    core_insertCallRecord _ _ _ _ _
  generalize s.insertCallRecord c _ _ _ = s₁ at hinsert ⊢
  have hwf : s₁.core.WellFormed := by
    have := hs.modify_call hcall (f := fun k => { k with callRecord := some s.records.next })
      (fun _ => ⟨rfl, rfl⟩) (hs.notIdle c)
    rw [hinsert]
    exact { this with }
  have hcall₁ : s₁.call = some c := (congrArg Session.call hinsert).trans hcall
  have hclient₁ : s₁.peerConnectionClient = some client :=
    (congrArg Session.client hinsert).trans hclient
  have hcore : (s₁.emit effect).core = s₁.core := core_emit s₁ hice hmissed
  rw [core_handleConnectedCall (s := s₁.emit effect) (hcore ▸ hwf) hcall₁ hclient₁, hcore, hinsert,
    Session.connect_recordConnected, Session.connect_record]

theorem turn_handleAnswerCall (e : Event) (hcall : s.call = some c)
    (hinput : s.core.input e = .userAnswers) :
    s.core.Turn e .userAnswers (s.handleAnswerCall c).core := by
  have hthread := thread_current hs hcall
  unfold handleAnswerCall
  cases hclient : s.peerConnectionClient with
  | none =>
    simp only [hcall, ne_eq, not_true_eq_false, if_false, hthread]
    exact hinput ▸ turn_failAssertion hs e _ fun _ _ => .inr ⟨hclient, .inl hinput⟩
  | some client =>
    simp only [hcall, ne_eq, not_true_eq_false, if_false, hthread]
    rw [core_answer hs hcall hclient rfl rfl]
    exact .answered e hcall hclient

theorem turn_handleDataChannelMessage {client : ClientRef}
    (hclient : s.peerConnectionClient = some client)
    (message : OWSWebRTCProtosData) :
    s.core.Turn (.client client (.received message))
      (s.core.input (.client client (.received message)))
      (s.handleDataChannelMessage message).core := by
  unfold handleDataChannelMessage
  cases hcall : s.call with
  | none => exact turn_failAssertion hs _ _ (by simp [hcall])
  | some c =>
    simp only
    have hinput : s.core.input (.client client (.received message)) =
        Session.clientInput (s.calls.get c) (.received message) := by
      simp [input_of_some hcall, Session.currentInput, hclient]
    cases hconnected : message.connected with
    | some id =>
      by_cases hid : id = (s.calls.get c).signalingId
      · have haccepted : s.core.input (.client client (.received message)) = .accepted := by
          simp [hinput, Session.clientInput, hconnected, hid]
        simp only [hid, ne_eq, not_true_eq_false, if_false, haccepted]
        have hcore : (s.emit (.recipientAcceptedCall c)).core = s.core := core_emit s rfl rfl
        rw [core_handleConnectedCall (s := s.emit _) (hcore ▸ hs) hcall hclient, hcore]
        exact .connected _ hcall hclient
      · simp only [ne_eq, hid, not_false_eq_true, if_true]
        refine turn_failAssertion hs _ _ fun _ _ => .inl ?_
        simp [hinput, Session.clientInput, hconnected, hid]
    | none =>
      cases hhangup : message.hangup with
      | some id =>
        by_cases hid : id = (s.calls.get c).signalingId
        · have hremote : s.core.input (.client client (.received message)) = .remoteHangup := by
            simp [hinput, Session.clientInput, hconnected, hhangup, hid]
          simp only [hid, ne_eq, not_true_eq_false, if_false, hremote, thread_current hs hcall]
          exact turn_handleRemoteHangup hs _ hcall
        · simp only [ne_eq, hid, not_false_eq_true, if_true]
          refine turn_failAssertion hs _ _ fun _ _ => .inl ?_
          simp [hinput, Session.clientInput, hconnected, hhangup, hid]
      | none =>
        have hother : s.core.input (.client client (.received message)) = .other := by
          simp [hinput, Session.clientInput, hconnected, hhangup]
        rw [hother]
        cases message.videoStreamingStatus with
        | none => exact .idle _
        | some enabled =>
          simp only [← hcall]
          exact .idle _

theorem turn_handleLocalAddedIceCandidate {client : ClientRef}
    (hclient : s.peerConnectionClient = some client) (candidate : RTCIceCandidate) :
    s.core.Turn (.client client (.addedLocalIceCandidate candidate))
      (s.core.input (.client client (.addedLocalIceCandidate candidate)))
      (s.handleLocalAddedIceCandidate candidate).core := by
  unfold handleLocalAddedIceCandidate
  cases hcall : s.call with
  | none => exact turn_failAssertion hs _ _ (by simp [hcall])
  | some c =>
    have hinput : s.core.input (.client client (.addedLocalIceCandidate candidate)) =
        .candidate ⟨(s.calls.get c).signalingId, candidate.sdp, candidate.sdpMLineIndex,
          candidate.sdpMid⟩ := by
      simp [input_of_some hcall, Session.currentInput, hclient, Session.clientInput]
    have hidle : (s.calls.get c).state ≠ .idle := hs.notIdle c
    have hthread := thread_current hs hcall
    simp only [if_neg hidle, hthread, hinput]
    split_ifs with himmediate
    · have hsend : ∀ message : OWSCallIceUpdateMessage, ∀ thread,
          (s.emit (.sendCallMessage ⟨thread, .iceUpdateMessages [message]⟩)).core =
            s.core.send message := fun _ _ => by
        simp [core, emit, Session.send, Effect.iceUpdates, Effect.missed]
      rw [hsend]
      exact .sent _ _ hcall himmediate
    · have hfalse : s.core.immediate = false := by simpa using himmediate
      simp only [← hcall, ← hthread]
      exact .buffered _ _ hcall hfalse

theorem turn_handleIceConnected {client : ClientRef}
    (hclient : s.peerConnectionClient = some client) :
    s.core.Turn (.client client .iceConnected) (s.core.input (.client client .iceConnected))
      s.handleIceConnected.core := by
  unfold handleIceConnected
  cases hcall : s.call with
  | none => exact turn_failAssertion hs _ _ (by simp [hcall])
  | some c =>
    have hobservers := observers_current hs hcall
    have hinput : s.core.input (.client client .iceConnected) = .other := by
      simp [input_of_some hcall, Session.currentInput, hclient, Session.clientInput]
    simp only [thread_current hs hcall, hinput]
    cases hstate : (s.calls.get c).state with
    | dialing =>
      simp only
      rw [core_setCallState_of_ne hcall hobservers (by simp)]
      exact .rang _ hcall (.inl ⟨hstate, rfl⟩)
    | answering =>
      simp only
      rw [core_emit _ rfl rfl, core_setCallState_of_ne hcall hobservers (by simp)]
      exact .rang _ hcall (.inr ⟨hstate, rfl⟩)
    | _ => exact .idle _

omit hs in
/-- An event of a client reaches its handler if the client is current. -/
theorem turn_ifCurrentClient {client : ClientRef} {event : ClientEvent} {handler : State → State}
    (h : s.peerConnectionClient = some client →
      s.core.Turn (.client client event) (s.core.input (.client client event)) (handler s).core) :
    s.core.Turn (.client client event) (s.core.input (.client client event))
      (s.ifCurrentClient client handler).core := by
  unfold ifCurrentClient
  split_ifs with hclient
  · exact h hclient
  · have hother : s.core.input (.client client event) = .other := by
      cases hcall : s.call with
      | none => simp [Session.input, hcall]
      | some c => simp [input_of_some hcall, Session.currentInput, hclient]
    rw [hother]
    exact .idle _

theorem turn_clientEvent (client : ClientRef) (event : ClientEvent) :
    s.core.Turn (.client client event) (s.core.input (.client client event))
      (s.clientEvent client event).core := by
  have hidle (hother : ∀ k, Session.clientInput k event = .other) :
      s.core.Turn (.client client event) (s.core.input (.client client event)) s.core := by
    have : s.core.input (.client client event) = .other := by
      cases hcall : s.call with
      | none => simp [Session.input, hcall]
      | some c => simp [input_of_some hcall, Session.currentInput, hother]
    rw [this]
    exact .idle _
  cases event with
  | iceConnected => exact turn_ifCurrentClient (turn_handleIceConnected hs)
  | iceFailed =>
    refine turn_ifCurrentClient fun hclient =>
      turn_handleFailedCall hs _ (fun _ _ => rfl) fun c hcall => .inl ?_
    simp [input_of_some hcall, Session.currentInput, hclient, Session.clientInput]
  | addedLocalIceCandidate candidate =>
    exact turn_ifCurrentClient (turn_handleLocalAddedIceCandidate hs · candidate)
  | received message => exact turn_ifCurrentClient (turn_handleDataChannelMessage hs · message)
  | didUpdateLocal track => exact turn_ifCurrentClient fun _ => hidle fun _ => rfl
  | didUpdateRemote track => exact turn_ifCurrentClient fun _ => hidle fun _ => rfl

/-! ### Placing and receiving calls -/

omit hs in
theorem core_setCall (hcall : s.call = none) (hc : (s.calls.get c).observers = []) :
    (s.setCall (some c)).core =
      ({ s.core with
          call := some c
          calls := s.calls.modify c fun k => { k with observers := [.callService] } } :
        Session).syncVideo := by
  have hcalls : (s.calls.modify c fun k => { k with observers := k.observers ++ [.callService] }) =
      s.calls.modify c fun k => { k with observers := [.callService] } :=
    Heap.modify_congr (by simp [hc])
  unfold setCall addObserverAndSyncState stateDidChange
  simp only [hcall]
  rw [core_updateIsVideoEnabled, core_updateIsVideoEnabled, Session.syncVideo_syncVideo, hcalls]
  rfl

/-- The unplaced call `c` becomes the current call. -/
theorem core_setCall_unplaced (hc : c ∈ s.unplaced) (hcall : s.call = none) :
    ({ s with unplaced := s.unplaced.erase c }.setCall (some c)).core =
      { s.core with
        unplaced := s.unplaced.erase c
        call := some c
        calls := s.calls.modify c fun k => { k with observers := [.callService] }
        clients := s.core.forClient (Session.requestVideo false) } := by
  obtain ⟨-, -, number, id, hget⟩ := hs.unplaced c hc
  rw [core_calls] at hget
  rw [core_setCall (s := { s with unplaced := s.unplaced.erase c }) hcall
    (by simp [hget, SignalCall.outgoingCall])]
  simp [Session.syncVideo, Session.video, hget, SignalCall.outgoingCall, Session.forClient]
  rfl

theorem core_handleOutgoingCall (hc : c ∈ s.unplaced) (hcall : s.call = none) :
    ({ s with unplaced := s.unplaced.erase c }.handleOutgoingCall c).core =
      match s.peerConnectionClient with
      | none => s.core.place c .dialing (.iceServers none)
      | some _ => s.core.place c .localFailure .notStarted := by
  obtain ⟨-, hsetUp, number, id, hget⟩ := hs.unplaced c hc
  rw [core_calls] at hget
  unfold handleOutgoingCall
  simp only [hcall]
  have hset := core_setCall_unplaced hs hc hcall
  generalize setCall _ (some c) = s₁ at hset ⊢
  have hcalls : s₁.calls = s.calls.modify c fun k => { k with observers := [.callService] } :=
    congrArg Session.calls hset
  have hrecords : s₁.records = s.records := congrArg Session.records hset
  have hinsert := core_insertCallRecord
    { s₁ with
      thread := some ⟨(s₁.calls.get c).remotePhoneNumber⟩
      sendIceUpdatesImmediately := false, pendingIceUpdateMessages := [] } c
    (s₁.calls.get c).remotePhoneNumber .outgoingIncomplete ⟨(s₁.calls.get c).remotePhoneNumber⟩
  generalize insertCallRecord _ c _ _ _ = s₂ at hinsert ⊢
  have hplace : s₂.core = s.core.place c .dialing .notStarted := by
    have hcore (thread : Option TSContactThread) :
        core { s₁ with thread, sendIceUpdatesImmediately := false,
                       pendingIceUpdateMessages := [] } =
          { s₁.core with thread, immediate := false, pending := [] } := rfl
    rw [hinsert, hcore, hset]
    simp only [Session.recordConnected, Session.place, hcalls, hrecords, core_calls, core_records,
      Heap.get_modify_self, Heap.modify_modify, hget, SignalCall.outgoingCall, Session.mk.injEq,
      true_and, and_true]
    refine ⟨Heap.modify_congr (by simp [hget, SignalCall.outgoingCall]), if_neg (by simp), ?_, rfl⟩
    funext d
    split_ifs with hd
    · exact hd ▸ hsetUp
    · rfl
  have hclient₂ : s₂.peerConnectionClient = s.peerConnectionClient := congrArg Session.client hplace
  cases hclient : s.peerConnectionClient with
  | none =>
    simp only [hclient₂, hclient]
    rw [core_setSetUp, hplace, Session.stage_place]
  | some client =>
    have hcall₂ : s₂.core.call = some c := congrArg Session.call hplace
    have hwf₂ : s₂.core.WellFormed := hplace ▸ hs.place hc hcall (by simp) _
    simp only [hclient₂, hclient]
    rw [core_setCallState_of_ne hcall₂ (observers_current hwf₂ hcall₂) (by simp), hplace,
      Session.ring_place]

theorem turn_handleOutgoingCall (hc : c ∈ s.unplaced) :
    s.core.Turn (.user (.handleOutgoingCall c)) (s.core.input (.user (.handleOutgoingCall c)))
      ({ s with unplaced := s.unplaced.erase c }.handleOutgoingCall c).core := by
  cases hcall : s.call with
  | none =>
    have hinput : s.core.input (.user (.handleOutgoingCall c)) = .other := by
      simp [Session.input, hcall]
    rw [hinput, core_handleOutgoingCall hs hc hcall]
    cases hclient : s.peerConnectionClient with
    | none => exact .placed hc hcall hclient
    | some client => exact .placedStale hc hcall hclient
  | some d =>
    have hinput : s.core.input (.user (.handleOutgoingCall c)) = .other := by
      simp [input_of_some hcall, Session.currentInput, Session.userInput]
    obtain ⟨-, -, number, id, hget⟩ := hs.unplaced c hc
    rw [core_calls] at hget
    have hcore : ({ s with unplaced := s.unplaced.erase c }.handleOutgoingCall c).core =
        s.core.refuse c := by
      simp only [handleOutgoingCall, hcall]
      rw [setCallState_of_unobserved (by simp [hget, SignalCall.outgoingCall])
        (by simp [hget, SignalCall.outgoingCall])]
      rfl
    rw [hinput, hcore]
    exact .aside (.refused hc hcall)

omit hs in
theorem turn_handleReceivedOffer (id : UInt64) (sdp callerId : String)
    (hasOngoingRedphoneCall : Bool) :
    s.core.Turn (.receivedOffer id sdp callerId hasOngoingRedphoneCall)
      (s.core.input (.receivedOffer id sdp callerId hasOngoingRedphoneCall))
      (s.handleReceivedOffer ⟨callerId⟩ id sdp hasOngoingRedphoneCall).core := by
  have hinput : s.core.input (.receivedOffer id sdp callerId hasOngoingRedphoneCall) = .other := by
    cases hcall : s.call with
    | none => simp [Session.input, hcall]
    | some c => simp [input_of_some hcall, Session.currentInput]
  rw [hinput]
  unfold handleReceivedOffer
  by_cases hbusy : (s.call.isSome || hasOngoingRedphoneCall) = true
  · simp only [if_pos hbusy]
    rw [core_handleLocalBusyCall]
    exact .aside (.turnedAway id sdp callerId _)
  · simp only [if_neg hbusy]
    obtain ⟨hcall, rfl⟩ : s.call = none ∧ hasOngoingRedphoneCall = false := by
      simpa using hbusy
    have hset := core_setCall (c := s.calls.next)
      (s := { s with calls := s.calls.alloc (.incomingCall callerId id),
                     thread := some ⟨callerId⟩ })
      hcall (by rw [Heap.get_alloc_self]; rfl)
    generalize setCall _ (some s.calls.next) = s₁ at hset ⊢
    have hoffer : s₁.core.stage s.calls.next (.iceServers (some sdp)) =
        s.core.offer callerId id sdp := by
      rw [hset]
      simp [Session.stage, Session.offer, Session.syncVideo, Session.video, Session.forClient,
        SignalCall.incomingCall]
    have hcore : core (setSetUp { s₁.setBackgroundTask s.calls.next .running with
        incomingCallPromise := some s.calls.next } s.calls.next (.iceServers (some sdp))) =
        s₁.core.stage s.calls.next (.iceServers (some sdp)) := rfl
    rw [hcore, hoffer]
    exact .offered id sdp callerId hcall

/-! ### User actions -/

theorem turn_handleLocalHungupCall (e : Event) (c : CallRef)
    (hinput : ∀ d, s.call = some d →
      s.core.input e = if c = d then .userDeclines else .failure) :
    s.core.Turn e (s.core.input e) (s.handleLocalHungupCall c).core := by
  unfold handleLocalHungupCall
  cases hcall : s.call with
  | none => exact turn_failAssertion hs _ _ (by simp [hcall])
  | some d =>
    by_cases hd : c = d
    · subst hd
      have hdeclines : s.core.input e = .userDeclines := by simp [hinput c hcall]
      have hthread := thread_current hs hcall
      cases hclient : s.peerConnectionClient with
      | none =>
        simp only [ne_eq, not_true_eq_false, if_false]
        exact turn_failAssertion hs _ _ fun _ _ => .inr ⟨hclient, .inr hdeclines⟩
      | some client =>
        simp only [ne_eq, not_true_eq_false, if_false, hthread]
        rw [core_terminateCall, core_emit _ rfl rfl, core_emit _ rfl rfl,
          core_setCallState_of_ne hcall (observers_current hs hcall) (by simp),
          Session.clear_ring hcall, hdeclines]
        exact .ended (.localHangup e hcall)
    · simp only [ne_eq, hd, not_false_eq_true, if_true]
      exact turn_failAssertion hs _ _ fun _ _ => .inl (by simp [hinput d hcall, hd])

theorem turn_withLocalId (e : Event) (c : CallRef) (function : String)
    {handler : State → CallRef → State}
    (h : s.call = some c → s.core.Turn e (s.core.input e) (handler s c).core)
    (hinput : ∀ d, s.call = some d → c ≠ d → s.core.input e = .failure) :
    s.core.Turn e (s.core.input e) (s.withLocalId c function handler).core := by
  unfold withLocalId
  cases hcall : s.call with
  | none => exact turn_failAssertion hs _ _ (by simp [hcall])
  | some d =>
    by_cases hd : d = c
    · simp only [hd, ne_eq, not_true_eq_false, if_false]
      exact h (hd ▸ hcall)
    · simp only [ne_eq, hd, not_false_eq_true, if_true]
      exact turn_failAssertion hs _ _ fun _ _ => .inl (hinput d hcall (Ne.symm hd))

theorem turn_setIsMuted (isMuted : Bool) :
    s.core.Turn (.user (.setIsMuted isMuted)) (s.core.input (.user (.setIsMuted isMuted)))
      (s.setIsMuted isMuted).core := by
  unfold setIsMuted
  cases hclient : s.peerConnectionClient with
  | none =>
    refine turn_failAssertion hs _ _ fun c hcall => .inl ?_
    simp [input_of_some hcall, Session.currentInput, Session.userInput, hclient]
  | some client =>
    cases hcall : s.call with
    | none => exact turn_failAssertion hs _ _ (by simp [hcall])
    | some c =>
      have hinput : s.core.input (.user (.setIsMuted isMuted)) = .other := by
        simp [input_of_some hcall, Session.currentInput, Session.userInput, hclient]
      rw [hinput]
      exact .muted isMuted hcall hclient

theorem core_setCallHasLocalVideo {client : ClientRef} (hcall : s.call = some c)
    (hclient : s.peerConnectionClient = some client) (hasLocalVideo : Bool) :
    ((s.setCallHasLocalVideo c hasLocalVideo).setLocalVideoEnabled client
      (s.setCallHasLocalVideo c hasLocalVideo).shouldHaveLocalVideoTrack).core =
      s.core.setVideo c client hasLocalVideo := by
  have hnotify : (s.setCallHasLocalVideo c hasLocalVideo).core =
      ({ s.core with calls := s.calls.modify c fun k => { k with hasLocalVideo } } :
        Session).syncVideo := by
    unfold setCallHasLocalVideo
    rw [notifyObservers_of_callService (by simpa using observers_current hs hcall),
      hasLocalVideoDidChange, core_updateIsVideoEnabled]
    rfl
  generalize s.setCallHasLocalVideo c hasLocalVideo = s₁ at hnotify ⊢
  calc (s₁.setLocalVideoEnabled client _).core
      = { s₁.core with
          clients := s₁.core.clients.modify client (Session.requestVideo s₁.core.video) } := rfl
    _ = s.core.setVideo c client hasLocalVideo := by
      rw [hnotify]
      simp [Session.syncVideo, Session.setVideo, Session.video, hcall, Session.forClient, hclient,
        Session.requestVideo_comp]

theorem turn_setHasLocalVideo (e : Event) (isAuthorized hasLocalVideo : Bool)
    (hinput : ∀ c, s.call = some c → s.core.input e =
      if isAuthorized ∧ s.peerConnectionClient = none then .failure else .other) :
    s.core.Turn e (s.core.input e) (s.setHasLocalVideo isAuthorized hasLocalVideo).core := by
  unfold setHasLocalVideo
  cases isAuthorized with
  | false =>
    have hother : s.core.input e = .other := by
      cases hcall : s.call with
      | none => simp [Session.input, hcall]
      | some c => simp [hinput c hcall]
    rw [hother]
    exact .idle e
  | true =>
    simp only [Bool.not_true, Bool.false_eq_true, if_false]
    cases hclient : s.peerConnectionClient with
    | none =>
      exact turn_failAssertion hs _ _ fun c hcall => .inl (by simp [hinput c hcall, hclient])
    | some client =>
      cases hcall : s.call with
      | none => exact turn_failAssertion hs _ _ (by simp [hcall])
      | some c =>
        have hother : s.core.input e = .other := by simp [hinput c hcall, hclient]
        simp only
        rw [core_setCallHasLocalVideo hs hcall hclient, hother]
        exact .videoSet e hasLocalVideo hcall hclient

omit hs in
theorem turn_createCallUIAdapter :
    s.core.Turn (.user .createCallUIAdapter) (s.core.input (.user .createCallUIAdapter))
      s.createCallUIAdapter.core := by
  unfold createCallUIAdapter
  cases hcall : s.call with
  | none =>
    have hinput : s.core.input (.user .createCallUIAdapter) = .other := by
      simp [Session.input, hcall]
    rw [hinput]
    exact .idle _
  | some c =>
    have hinput : s.core.input (.user .createCallUIAdapter) = .reset := by
      simp [input_of_some hcall, Session.currentInput, Session.userInput]
    rw [Option.isSome_some, if_pos rfl, core_terminateCall, hinput]
    exact .ended (.reset _ hcall)

theorem turn_userAction {action : UserAction} {s' : State} (h : s.userAction action = some s') :
    s.core.Turn (.user action) (s.core.input (.user action)) s'.core := by
  have hinput {c : CallRef} (hcall : s.call = some c) :
      s.core.input (.user action) = s.core.userInput c action := by
    rw [input_of_some hcall, Session.currentInput]
  cases action with
  | newOutgoingCall handle signalingId =>
    obtain rfl := Option.some.inj h
    have hother : s.core.input (.user (.newOutgoingCall handle signalingId)) = .other := by
      cases hcall : s.call with
      | none => simp [Session.input, hcall]
      | some c => simp [hinput hcall, Session.userInput]
    rw [hother]
    exact .aside (.created handle signalingId)
  | handleOutgoingCall c =>
    by_cases hc : c ∈ s.unplaced
    · simp only [userAction, if_pos hc, Option.some.injEq] at h
      subst h
      exact turn_handleOutgoingCall hs hc
    · simp [userAction, hc] at h
  | handleAnswerCall c =>
    obtain rfl := Option.some.inj h
    cases hcall : s.call with
    | none =>
      simp only [handleAnswerCall, hcall]
      exact turn_failAssertion hs _ _ (by simp [hcall])
    | some d =>
      by_cases hd : c = d
      · subst hd
        have hanswers : s.core.input (.user (.handleAnswerCall c)) = .userAnswers := by
          simp [hinput hcall, Session.userInput]
        rw [hanswers]
        exact turn_handleAnswerCall hs _ hcall hanswers
      · have hother : s.core.input (.user (.handleAnswerCall c)) = .other := by
          simp [hinput hcall, Session.userInput, hd]
        simp only [handleAnswerCall, hcall, ne_eq, hd, not_false_eq_true, if_true, hother]
        exact .idle _
  | handleAnswerCallWithLocalId c =>
    obtain rfl := Option.some.inj h
    refine turn_withLocalId hs _ c _ (fun hcall => ?_) fun d hcall hd => ?_
    · have hanswers : s.core.input (.user (.handleAnswerCallWithLocalId c)) = .userAnswers := by
        simp [hinput hcall, Session.userInput]
      rw [hanswers]
      exact turn_handleAnswerCall hs _ hcall hanswers
    · simp [hinput hcall, Session.userInput, hd]
  | handleDeclineCall c =>
    obtain rfl := Option.some.inj h
    exact turn_handleLocalHungupCall hs _ c fun d hcall => hinput hcall
  | handleDeclineCallWithLocalId c =>
    obtain rfl := Option.some.inj h
    refine turn_withLocalId hs _ c _ (fun hcall => ?_) fun d hcall hd => ?_
    · exact turn_handleLocalHungupCall hs _ c fun d hcall => hinput hcall
    · simp [hinput hcall, Session.userInput, hd]
  | handleLocalHungupCall c =>
    obtain rfl := Option.some.inj h
    exact turn_handleLocalHungupCall hs _ c fun d hcall => hinput hcall
  | setIsMuted isMuted =>
    obtain rfl := Option.some.inj h
    exact turn_setIsMuted hs isMuted
  | setHasLocalVideo isAuthorized hasLocalVideo =>
    obtain rfl := Option.some.inj h
    exact turn_setHasLocalVideo hs _ _ _ fun c hcall => hinput hcall
  | handleCallKitStartVideo isAuthorized =>
    obtain rfl := Option.some.inj h
    exact turn_setHasLocalVideo hs _ _ _ fun c hcall => hinput hcall
  | createCallUIAdapter =>
    obtain rfl := Option.some.inj h
    exact turn_createCallUIAdapter
  | providerDidReset =>
    obtain rfl := Option.some.inj h
    exact turn_handleFailedCall hs _ (fun _ _ => rfl) fun c hcall => .inl (hinput hcall)

/-! ### Application events -/

omit hs in
theorem turn_application (e : Event) (inBackground : Bool)
    (he : ∀ d, s.core.currentInput d e = .other) :
    s.core.Turn e (s.core.input e) { s with inBackground }.updateIsVideoEnabled.core := by
  have hinput : s.core.input e = .other := by
    cases hcall : s.call with
    | none => simp [Session.input, hcall]
    | some d => rw [input_of_some hcall, he]
  rw [core_updateIsVideoEnabled, hinput]
  exact .application e inBackground

/-! ### Continuations -/

omit hs in
theorem input_continuation (c : CallRef) {k : Continuation}
    (hk : ∀ d, s.core.continuationInput d c k = .other) :
    s.core.input (.continuation c k) = .other := by
  cases hcall : s.call with
  | none => simp [Session.input, hcall]
  | some d => simp [input_of_some hcall, Session.currentInput, hk]

omit hs in
/-- A continuation of the set-up that goes on only while its call is current. -/
theorem turn_guardCurrent {k : Continuation} {stage : SetUp} {rest : State} (description : String)
    (hk : ∀ d, s.core.continuationInput d c k = .other) (hsetUp : s.setUp c = stage)
    (hobsolete : ∀ error, stage.Advance (.failed error))
    (hrest : s.call = some c → s.core.Turn (.continuation c k) .other rest.core) :
    s.core.Turn (.continuation c k) (s.core.input (.continuation c k))
      (s.guardCurrent c description rest).core := by
  rw [input_continuation c hk]
  unfold guardCurrent
  split_ifs with hcall
  · exact hrest hcall
  · exact .aside (.advanced k (hsetUp ▸ hobsolete _ : (s.setUp c).Advance _))

omit hs in
theorem turn_advanced {k : Continuation} {stage stage' : SetUp} {s' : State}
    (hk : ∀ d, s.core.continuationInput d c k = .other) (hsetUp : s.setUp c = stage)
    (h : stage.Advance stage') (hs' : s'.core = s.core.stage c stage') :
    s.core.Turn (.continuation c k) (s.core.input (.continuation c k)) s'.core := by
  rw [input_continuation c hk, hs']
  exact .aside (.advanced k (hsetUp ▸ h : (s.setUp c).Advance stage'))

/-- The `catch` of a set-up chain that calls `handleFailedCall`. -/
theorem turn_caught {error : Error} (hsetUp : s.setUp c = .failed error)
    (hc : (s.calls.get c).direction = .outgoing ∨ s.call = some c) :
    s.core.Turn (.continuation c .caught) (s.core.input (.continuation c .caught))
      ((s.setSetUp c .caught).handleFailedCall error.asCallError).core := by
  have hwf : (s.setSetUp c .caught).core.WellFormed :=
    hs.stage (by simp [hsetUp]) fun _ => rfl
  cases hcall : s.call with
  | none =>
    have hinput : s.core.input (.continuation c .caught) = .other := by
      simp [Session.input, hcall]
    rw [core_handleFailedCall_of_none (s := s.setSetUp c .caught) hcall, core_setSetUp, hinput]
    exact .ended (.caughtCleared hcall hsetUp)
  | some d =>
    have hinput : s.core.input (.continuation c .caught) =
        if error.asCallError.isTimeoutOfOther d = false then .failure else .other := by
      have hc : (s.calls.get c).direction = .outgoing ∨ c = d := by
        simpa [hcall, eq_comm] using hc
      simp [input_of_some hcall, Session.currentInput, Session.continuationInput, hsetUp, hc]
    cases htimeout : error.asCallError.isTimeoutOfOther d with
    | false =>
      rw [core_handleFailedCall (s := s.setSetUp c .caught) hwf hcall htimeout, core_setSetUp,
        hinput,
        if_pos htimeout]
      exact .ended (.caughtFailed _ hcall hsetUp)
    | true =>
      have hskip : (s.setSetUp c .caught).handleFailedCall error.asCallError =
          s.setSetUp c .caught := by
        have hcall' : (s.setSetUp c .caught).call = some d := hcall
        simp [handleFailedCall, hcall', htimeout]
      rw [hskip, core_setSetUp, hinput, if_neg (by simp [htimeout])]
      have hadv : (s.setUp c).Advance .caught := by
        rw [hsetUp]
        exact .caught error
      exact .aside (.advanced _ hadv)

/-- The `catch` of an incoming call, which does nothing unless it is current. -/
theorem turn_incomingCatch {error : Error} (hsetUp : s.setUp c = .failed error)
    (hdirection : (s.calls.get c).direction = .incoming) :
    s.core.Turn (.continuation c .caught) (s.core.input (.continuation c .caught))
      (s.incomingCatch c error).core := by
  unfold incomingCatch
  simp only
  split_ifs with hcall
  · exact turn_caught hs hsetUp (.inr hcall)
  · have hinput : s.core.input (.continuation c .caught) = .other := by
      have hne (d : CallRef) (hd : s.call = some d) : c ≠ d := fun hcd =>
        hcall (hcd ▸ hd)
      cases hcall' : s.call with
      | none => simp [Session.input, hcall']
      | some d =>
        simp [input_of_some hcall', Session.currentInput, Session.continuationInput, hsetUp,
          hdirection, hne d hcall']
    have hadv : (s.setUp c).Advance .caught := by
      rw [hsetUp]
      exact .caught error
    rw [hinput, core_setSetUp]
    exact .aside (.advanced _ hadv)

theorem turn_backgroundTimeout :
    s.core.Turn (.continuation c .backgroundTimeout)
      (s.core.input (.continuation c .backgroundTimeout))
      ((s.setBackgroundTask c .ended).backgroundTimeout c).core := by
  unfold backgroundTimeout
  split_ifs with hcall
  · refine turn_handleFailedCall (s := s.setBackgroundTask c .ended) hs _ (fun d hd => ?_)
      fun d hd => .inl ?_
    · have hcd : c = d := Option.some.inj (hcall.symm.trans hd)
      simp [CallError.isTimeoutOfOther, hcd]
    · have hcall : s.call = some c := hcall
      have hinput : s.core.input (.continuation c .backgroundTimeout) = .failure := by
        simp [input_of_some hcall, Session.currentInput, Session.continuationInput]
      exact hinput
  · have hinput : s.core.input (.continuation c .backgroundTimeout) = .other := by
      have hne (d : CallRef) (hd : s.call = some d) : c ≠ d := fun hcd => hcall (hcd ▸ hd)
      cases hcall' : s.call with
      | none => simp [Session.input, hcall']
      | some d =>
        simp [input_of_some hcall', Session.currentInput, Session.continuationInput, hne d hcall']
    rw [hinput]
    exact .idle _

theorem turn_continuation {k : Continuation} {s' : State}
    (h : s.continuation c k = some (.ok s')) :
    s.core.Turn (.continuation c k) (s.core.input (.continuation c k)) s'.core := by
  have hother (hk : ∀ d, s.core.continuationInput d c k = .other) := input_continuation c hk
  cases continues_of_continuation h with
  | outgoingIceServers result hsetUp =>
    rw [hother fun _ => rfl]
    exact .madeOutgoing result hsetUp
  | @incomingIceServers result sdp hsetUp =>
    refine turn_guardCurrent _ (fun _ => rfl) hsetUp (.obsolete sdp) fun hcall => ?_
    rw [core_setSetUp, core_emit _ rfl rfl]
    exact .madeIncoming result hsetUp hcall
  | offer sdp hsetUp =>
    refine turn_advanced (fun _ => rfl) hsetUp (.created sdp) ?_
    rw [core_setSetUp, core_emit _ rfl rfl]
  | @localDescription sdp hsetUp =>
    refine turn_advanced (fun _ => rfl) hsetUp (.described sdp) ?_
    rw [outgoingLocalDescription, core_setSetUp, core_emit _ rfl rfl]
  | negotiated sdp hsetUp =>
    refine turn_guardCurrent _ (fun _ => rfl) hsetUp .notNegotiated fun hcall => ?_
    rw [core_setSetUp, core_emit _ rfl rfl]
    have hadv : (s.setUp c).Advance .sending := by
      rw [hsetUp]
      exact .negotiated
    exact .aside (.advanced _ hadv)
  | outgoingSent hsetUp =>
    rw [hother fun _ => rfl]
    exact .aside (.raced hsetUp)
  | incomingSent hsetUp =>
    exact turn_guardCurrent _ (fun _ => rfl) hsetUp .notSent fun _ => .aside (.raced hsetUp)
  | rejected error hadvance =>
    exact turn_advanced (fun _ => rfl) rfl hadvance (core_setSetUp _ _ _)
  | connectingTimeout hsetUp =>
    exact turn_advanced (fun _ => rfl) hsetUp (.timedOut _) (core_setSetUp _ _ _)
  | outgoingCaught hsetUp hdirection => exact turn_caught hs hsetUp (.inl hdirection)
  | incomingCaught hsetUp hdirection => exact turn_incomingCatch hs hsetUp hdirection
  | finished hsetUp =>
    have hcore : ((s.setSetUp c .finished).endBackgroundTask c).core =
        s.core.stage c .finished := by
      unfold endBackgroundTask
      split_ifs <;> rfl
    rcases hsetUp with hsetUp | hsetUp
    · exact turn_advanced (fun _ => rfl) hsetUp .finished hcore
    · exact turn_advanced (fun _ => rfl) hsetUp .failed hcore
  | remoteDescriptionRejected error hpending =>
    refine turn_handleFailedCall
      (s := { s with remoteDescriptions := s.remoteDescriptions.erase c }) hs _ (fun _ _ => rfl)
      fun d hcall => .inl ?_
    have hcall : s.call = some d := hcall
    exact (input_of_some hcall _).trans rfl
  | remoteDescription | messageSettled | backgroundTaskExpired =>
    rw [hother fun _ => rfl]
    exact .idle _
  | backgroundTimeout => exact turn_backgroundTimeout hs

/-- One turn of the call service is one transition of its session. -/
theorem core_next {e : Event} {s' : State} (h : s.next e = some s') :
    s.core.Turn e (s.core.input e) s'.core := by
  obtain ⟨result, hturn, hresult⟩ := Option.bind_eq_some_iff.mp h
  obtain rfl : result = .ok s' := by
    cases result with
    | error fault => cases hresult
    | ok s₁ => rw [Option.some.inj hresult]
  cases e with
  | receivedOffer id sdp callerId hasOngoingRedphoneCall =>
    obtain rfl := Except.ok.inj (Option.some.inj hturn)
    exact turn_handleReceivedOffer id sdp callerId _
  | received message callerId => exact turn_receivedMessage hs (Option.some.inj hturn)
  | client client event =>
    obtain rfl := Except.ok.inj (Option.some.inj hturn)
    exact turn_clientEvent hs client event
  | user action =>
    obtain ⟨s₁, haction, hs₁⟩ := Option.map_eq_some_iff.mp hturn
    obtain rfl := Except.ok.inj hs₁
    exact turn_userAction hs haction
  | continuation c k => exact turn_continuation hs hturn
  | didEnterBackground =>
    obtain rfl := Except.ok.inj (Option.some.inj hturn)
    exact turn_application _ true fun _ => rfl
  | didBecomeActive =>
    obtain rfl := Except.ok.inj (Option.some.inj hturn)
    exact turn_application _ false fun _ => rfl

end

end State

open State in
/-- The session is well formed in every state the call service reaches. -/
theorem wellFormed_of_run {tr : History State Event} (h : callMachine.Run tr) :
    (callMachine.last tr).core.WellFormed :=
  h.state_invariant (I := fun s => s.core.WellFormed) Session.WellFormed.initial
    fun _ _ _ hs hstep => (core_next hs hstep).wellFormed hs

open State in
/-- Along a run, each turn is a transition of a well-formed session. -/
theorem turn_of_run {tr : History State Event} (h : callMachine.Run tr) {e : Event} {s : State}
    (hstep : callMachine.step (callMachine.last tr) e = some s) :
    (callMachine.last tr).core.Turn e ((callMachine.last tr).core.input e) s.core :=
  core_next (wellFormed_of_run h) hstep

end SignalIOS.Call
