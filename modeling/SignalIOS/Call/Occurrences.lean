import SignalIOS.Call.Frame

/-! What can occur to the current call in a turn, in the words of the source, and the input that
stands for it. -/
namespace SignalIOS.Call
open SignalIOS.Lib

abbrev Trace := History State Event

/-- The local user invokes `handleAnswerCall` for `call`, which is current. -/
def UserAnswers (call : CallRef) (s : State) (e : Event) : Prop :=
  s.call = some call ∧
    (e = .user (.handleAnswerCall call) ∨ e = .user (.handleAnswerCallWithLocalId call))

/-- The local user has invoked `handleAnswerCall` for `call`. -/
def Answered (call : CallRef) (tr : Trace) : Prop := callMachine.Happened (UserAnswers call) tr

/-- The local user declines `call`, which is current, or hangs it up. -/
def UserDeclines (call : CallRef) (s : State) (e : Event) : Prop :=
  s.call = some call ∧
    (e = .user (.handleDeclineCall call) ∨ e = .user (.handleDeclineCallWithLocalId call) ∨
      e = .user (.handleLocalHungupCall call))

/-- The local user has declined `call`, or hung it up. -/
def Declined (call : CallRef) (tr : Trace) : Prop :=
  callMachine.Happened (UserDeclines call) tr

/-- The call has been connected at some time. -/
def EverConnected (call : CallRef) (tr : Trace) : Prop :=
  callMachine.Reached (fun s => (s.calls.get call).state = .connected) tr

/-- The current client receives a Connected message with the signaling id of the current call. -/
def ReceivesConnected (call : CallRef) (s : State) (e : Event) : Prop :=
  s.call = some call ∧ ∃ client message, s.peerConnectionClient = some client ∧
    e = .client client (.received message) ∧
    message.connected = some (s.calls.get call).signalingId

/-- The turn runs `handleConnectedCall` for `call`, with a client whose audio it enables. -/
def HandlesConnectedCall (call : CallRef) (s : State) (e : Event) : Prop :=
  ReceivesConnected call s e ∨ UserAnswers call s e ∧ s.peerConnectionClient ≠ none

/-- The ICE update message for the local candidate that the current client reports. -/
def candidateMessage (call : CallRef) (s : State) : Event → Option OWSCallIceUpdateMessage
  | .client client (.addedLocalIceCandidate candidate) =>
    if s.call = some call ∧ s.peerConnectionClient = some client then
      some ⟨(s.calls.get call).signalingId, candidate.sdp, candidate.sdpMLineIndex,
        candidate.sdpMid⟩
    else none
  | _ => none

/-- An answer with the signaling id of the current call is received. -/
def ReceivesAnswer (call : CallRef) (s : State) (e : Event) : Prop :=
  s.call = some call ∧ ∃ sdp callerId,
    e = .received (.answer (s.calls.get call).signalingId sdp) callerId

namespace Session
variable {S : Session} {c : CallRef} {e : Event} {i : Input}

/-- The inputs that signaling messages, client events, user actions and continuations stand for. -/
theorem messageInput_mem (k : SignalCall) (callerId : String) (message : CallMessage) :
    S.messageInput k callerId message ∈
      [Input.other, .failure, .answer, .remoteHangup, .remoteBusy] := by
  cases message <;> simp only [messageInput] <;> (try split_ifs) <;> simp

theorem clientInput_mem (k : SignalCall) (event : ClientEvent)
    (hcandidate : ∀ message, clientInput k event ≠ .candidate message) :
    clientInput k event ∈ [Input.other, .failure, .accepted, .remoteHangup] := by
  cases event with
  | received message =>
    simp only [clientInput]
    split <;> (try split_ifs) <;> simp
  | addedLocalIceCandidate candidate => exact absurd rfl (hcandidate _)
  | _ => simp [clientInput]

theorem userInput_mem (c : CallRef) (action : UserAction) :
    S.userInput c action ∈ [Input.other, .failure, .userAnswers, .userDeclines, .reset] := by
  cases action <;> simp only [userInput] <;> (try split_ifs) <;> simp

theorem continuationInput_mem (c d : CallRef) (k : Continuation) :
    S.continuationInput c d k ∈ [Input.other, .failure] := by
  cases k with
  | caught =>
    simp only [continuationInput]
    split <;> (try split_ifs) <;> simp
  | backgroundTimeout =>
    simp only [continuationInput]
    split_ifs <;> simp
  | _ => simp [continuationInput]

/-- An input that is none of these comes from a user action. -/
theorem currentInput_of_user (hi : i = .userAnswers ∨ i = .userDeclines ∨ i = .reset)
    (h : S.currentInput c e = i) : ∃ action, e = .user action ∧ S.userInput c action = i := by
  cases e with
  | user action => exact ⟨action, rfl, h⟩
  | received message callerId =>
    have := messageInput_mem (S := S) (S.calls.get c) callerId message
    rw [show S.messageInput _ callerId message = i from h] at this
    rcases hi with rfl | rfl | rfl <;> simp at this
  | client client event =>
    simp only [currentInput] at h
    split_ifs at h with hclient
    · have := clientInput_mem (S.calls.get c) event (by rcases hi with rfl | rfl | rfl <;> simp [h])
      rw [h] at this
      rcases hi with rfl | rfl | rfl <;> simp at this
    · rcases hi with rfl | rfl | rfl <;> simp at h
  | continuation d k =>
    have := continuationInput_mem (S := S) c d k
    rw [show S.continuationInput c d k = i from h] at this
    rcases hi with rfl | rfl | rfl <;> simp at this
  | receivedOffer | didEnterBackground | didBecomeActive =>
    rcases hi with rfl | rfl | rfl <;> simp [currentInput] at h

theorem currentInput_userAnswers :
    S.currentInput c e = .userAnswers ↔
      e = .user (.handleAnswerCall c) ∨ e = .user (.handleAnswerCallWithLocalId c) := by
  constructor
  · intro h
    obtain ⟨action, rfl, haction⟩ := currentInput_of_user (.inl rfl) h
    cases action <;> simp only [userInput] at haction <;> grind
  · rintro (rfl | rfl) <;> simp [currentInput, userInput]

theorem currentInput_userDeclines :
    S.currentInput c e = .userDeclines ↔
      e = .user (.handleDeclineCall c) ∨ e = .user (.handleDeclineCallWithLocalId c) ∨
        e = .user (.handleLocalHungupCall c) := by
  constructor
  · intro h
    obtain ⟨action, rfl, haction⟩ := currentInput_of_user (.inr (.inl rfl)) h
    cases action <;> simp only [userInput] at haction <;> grind
  · rintro (rfl | rfl | rfl) <;> simp [currentInput, userInput]

theorem currentInput_accepted :
    S.currentInput c e = .accepted ↔
      ∃ client message, S.client = some client ∧ e = .client client (.received message) ∧
        message.connected = some (S.calls.get c).signalingId := by
  constructor
  · intro h
    cases e with
    | client client event =>
      simp only [currentInput] at h
      split_ifs at h with hclient
      cases event with
      | received message =>
        refine ⟨client, message, hclient, rfl, ?_⟩
        simp only [clientInput] at h
        grind
      | _ => simp [clientInput] at h
    | received message callerId =>
      have := messageInput_mem (S := S) (S.calls.get c) callerId message
      rw [show S.messageInput _ callerId message = _ from h] at this
      simp at this
    | user action =>
      have := userInput_mem (S := S) c action
      rw [show S.userInput c action = _ from h] at this
      simp at this
    | continuation d k =>
      have := continuationInput_mem (S := S) c d k
      rw [show S.continuationInput c d k = _ from h] at this
      simp at this
    | receivedOffer | didEnterBackground | didBecomeActive => simp [currentInput] at h
  · rintro ⟨client, message, hclient, rfl, hid⟩
    simp [currentInput, hclient, clientInput, hid]

theorem currentInput_answer :
    S.currentInput c e = .answer ↔
      ∃ sdp callerId, e = .received (.answer (S.calls.get c).signalingId sdp) callerId := by
  constructor
  · intro h
    cases e with
    | received message callerId =>
      cases message with
      | answer id sdp =>
        simp only [currentInput, messageInput] at h
        split_ifs at h with hid
        exact ⟨sdp, callerId, by rw [hid]⟩
      | iceUpdate id sdp line mid =>
        simp only [currentInput, messageInput] at h
        split_ifs at h
      | hangup id =>
        simp only [currentInput, messageInput] at h
        split_ifs at h
      | busy id => simp [currentInput, messageInput] at h
    | client client event =>
      simp only [currentInput] at h
      split_ifs at h
      have := clientInput_mem (S.calls.get c) event (by simp [h])
      simp [h] at this
    | user action =>
      have := userInput_mem (S := S) c action
      rw [show S.userInput c action = _ from h] at this
      simp at this
    | continuation d k =>
      have := continuationInput_mem (S := S) c d k
      rw [show S.continuationInput c d k = _ from h] at this
      simp at this
    | receivedOffer | didEnterBackground | didBecomeActive => simp [currentInput] at h
  · rintro ⟨sdp, callerId, rfl⟩
    simp [currentInput, messageInput]

theorem currentInput_candidate {message : OWSCallIceUpdateMessage} :
    S.currentInput c e = .candidate message ↔
      ∃ client candidate, S.client = some client ∧
        e = .client client (.addedLocalIceCandidate candidate) ∧
        message = ⟨(S.calls.get c).signalingId, candidate.sdp, candidate.sdpMLineIndex,
          candidate.sdpMid⟩ := by
  constructor
  · intro h
    cases e with
    | client client event =>
      simp only [currentInput] at h
      split_ifs at h with hclient
      cases event with
      | addedLocalIceCandidate candidate =>
        exact ⟨client, candidate, hclient, rfl, (Input.candidate.inj h).symm⟩
      | received message =>
        simp only [clientInput] at h
        grind
      | _ => simp [clientInput] at h
    | received message callerId =>
      have := messageInput_mem (S := S) (S.calls.get c) callerId message
      rw [show S.messageInput _ callerId message = _ from h] at this
      simp at this
    | user action =>
      have := userInput_mem (S := S) c action
      rw [show S.userInput c action = _ from h] at this
      simp at this
    | continuation d k =>
      have := continuationInput_mem (S := S) c d k
      rw [show S.continuationInput c d k = _ from h] at this
      simp at this
    | receivedOffer | didEnterBackground | didBecomeActive => simp [currentInput] at h
  · rintro ⟨client, candidate, hclient, rfl, rfl⟩
    simp [currentInput, hclient, clientInput]

end Session

namespace State
variable {s : State} {e : Event} {c : CallRef}

theorem input_userAnswers (hcall : s.call = some c) :
    s.core.input e = .userAnswers ↔ UserAnswers c s e := by
  rw [input_of_some hcall, Session.currentInput_userAnswers]
  simp [UserAnswers, hcall]

theorem input_userDeclines (hcall : s.call = some c) :
    s.core.input e = .userDeclines ↔ UserDeclines c s e := by
  rw [input_of_some hcall, Session.currentInput_userDeclines]
  simp [UserDeclines, hcall]

theorem input_accepted (hcall : s.call = some c) :
    s.core.input e = .accepted ↔ ReceivesConnected c s e := by
  rw [input_of_some hcall, Session.currentInput_accepted]
  simp [ReceivesConnected, hcall]

theorem input_answer (hcall : s.call = some c) :
    s.core.input e = .answer ↔ ReceivesAnswer c s e := by
  rw [input_of_some hcall, Session.currentInput_answer]
  simp [ReceivesAnswer, hcall]

theorem input_candidate (hcall : s.call = some c) {message : OWSCallIceUpdateMessage} :
    s.core.input e = .candidate message ↔ candidateMessage c s e = some message := by
  rw [input_of_some hcall, Session.currentInput_candidate]
  constructor
  · rintro ⟨client, candidate, hclient, rfl, rfl⟩
    rw [core_client] at hclient
    simp [candidateMessage, hcall, hclient]
  · intro h
    unfold candidateMessage at h
    split at h
    · rename_i client candidate
      split_ifs at h with hcurrent
      exact ⟨client, candidate, hcurrent.2, rfl, (Option.some.inj h).symm⟩
    · exact nomatch h

/-! ### The arrival of ICE servers -/

theorem next_outgoingIceServers {s' : State} {result : Except NSError TurnServerInfo}
    (hsetUp : s.setUp c = .iceServers none)
    (hstep : s.next (.continuation c (.iceServers result)) = some s') :
    s' = s.outgoingIceServers c (getIceServers result) := by
  simpa [next, turn, continuation, hsetUp, Except.toOption, eq_comm] using hstep

theorem next_incomingIceServers {s' : State} {result : Except NSError TurnServerInfo} {sdp : String}
    (hsetUp : s.setUp c = .iceServers (some sdp))
    (hstep : s.next (.continuation c (.iceServers result)) = some s') :
    s' = s.incomingIceServers c (getIceServers result) sdp := by
  simpa [next, turn, continuation, hsetUp, Except.toOption, eq_comm] using hstep

end State

/-! ### Connecting -/

namespace HandlesConnectedCall
variable {s s' : State} {e : Event} {c : CallRef}

theorem call (h : HandlesConnectedCall c s e) : s.call = some c :=
  h.elim (·.1) (·.1.1)

theorem core (h : HandlesConnectedCall c s e)
    (hs : s.core.WellFormed) (hstep : s.next e = some s') :
    ∃ client, s.peerConnectionClient = some client ∧
      (s'.core = s.core.connect c client ∨ s'.core = s.core.answer c client) :=
  (State.core_next hs hstep).connects h.call <|
    h.imp (State.input_accepted h.call).mpr fun hanswers =>
      ⟨(State.input_userAnswers h.call).mpr hanswers.1, hanswers.2⟩

/-- `handleConnectedCall` connects the call, and enables its audio unless it is muted. -/
theorem connected (h : HandlesConnectedCall c s e)
    (hs : s.core.WellFormed) (hstep : s.next e = some s') :
    (s'.calls.get c).state = .connected ∧ ∃ client, s'.peerConnectionClient = some client ∧
      (s'.clients.get client).audioEnabled = some !(s'.calls.get c).isMuted := by
  obtain ⟨client, hclient, hs'⟩ := h.core hs hstep
  have hcore : (s'.core.calls.get c).state = .connected ∧ s'.core.client = some client ∧
      (s'.core.clients.get client).audioEnabled = some !(s'.core.calls.get c).isMuted := by
    rcases hs' with hs' | hs' <;> simpa [hs', Session.connectClient] using hclient
  exact ⟨hcore.1, client, hcore.2⟩

end HandlesConnectedCall

/-! ### Along runs -/

theorem connected_allocated {tr : Trace} (h : callMachine.Run tr) {c : CallRef}
    (hc : ((callMachine.last tr).calls.get c).state = .connected) :
    c < (callMachine.last tr).calls.next := by
  revert c
  refine h.invariant (P := fun tr => ∀ {c : CallRef},
    ((callMachine.last tr).calls.get c).state = .connected → c < (callMachine.last tr).calls.next)
    (fun hc => nomatch hc) fun tr e s hrun ih hstep c hc => ?_
  have ht := turn_of_run hrun hstep
  refine Nat.lt_of_lt_of_le ?_ ht.next_le
  rcases ht.state_connected hc with hc | ⟨hc, -⟩
  · exact ih hc
  · exact (wellFormed_of_run hrun).allocated c hc

theorem direction_of_step {tr : Trace} (h : callMachine.Run tr) {e : Event} {s : State}
    (hstep : callMachine.step (callMachine.last tr) e = some s) {c : CallRef}
    (hc : c < (callMachine.last tr).calls.next) :
    (s.calls.get c).direction = ((callMachine.last tr).calls.get c).direction :=
  congrArg Prod.fst ((turn_of_run h hstep).identity hc)

end SignalIOS.Call
