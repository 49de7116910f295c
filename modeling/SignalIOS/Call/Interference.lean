import SignalIOS.Call.Occurrences

/-! How signaling messages that do not belong to the current call, and the promises of earlier
calls, interfere with it. -/
namespace SignalIOS.Call
open SignalIOS.Lib

/-- What a message about another call should leave alone. -/
structure Undisturbed (c : CallRef) (s s' : State) : Prop where
  call : s'.call = s.call
  state : (s'.calls.get c).state = (s.calls.get c).state
  client : s'.peerConnectionClient = s.peerConnectionClient
  alive : ∀ client, s'.peerConnectionClient = some client →
    (s'.clients.get client).terminated = false
  thread : s'.thread = s.thread
  immediate : s'.sendIceUpdatesImmediately = s.sendIceUpdatesImmediately
  pending : s'.pendingIceUpdateMessages = s.pendingIceUpdateMessages

/-- The message comes from another contact than that of the call, or names another call. -/
def Mismatched (call : SignalCall) (message : CallMessage) (callerId : String) : Prop :=
  callerId ≠ call.remotePhoneNumber ∨ message.id ≠ call.signalingId

/-- The mismatched messages that are ignored: hang-ups of other contacts, and answers of other
contacts with the id of the call, once its ICE updates are sent at once. -/
def Ignored (s : State) (call : SignalCall) (callerId : String) : CallMessage → Prop
  | .hangup _ => callerId ≠ call.remotePhoneNumber
  | .answer id _ => id = call.signalingId ∧ s.sendIceUpdatesImmediately = true ∧
      s.peerConnectionClient ≠ none
  | _ => False

theorem undisturbed_iff {tr : Trace} (h : callMachine.Run tr) {c : CallRef}
    (hcall : (callMachine.last tr).call = some c) {message : CallMessage} {callerId : String}
    (hmismatched : Mismatched ((callMachine.last tr).calls.get c) message callerId) :
    (∃ s', (callMachine.last tr).next (.received message callerId) = some s' ∧
        Undisturbed c (callMachine.last tr) s') ↔
      Ignored (callMachine.last tr) ((callMachine.last tr).calls.get c) callerId message := by
  have hs := wellFormed_of_run h
  generalize callMachine.last tr = s at hs hcall hmismatched ⊢
  constructor
  · rintro ⟨s', hstep, hsame⟩
    have ht := State.core_next hs hstep
    have hgone (hinput : s.core.input (.received message callerId) ∈
        [Input.failure, .remoteHangup, .remoteBusy, .userDeclines, .reset]) : False :=
      nomatch (ht.call_eq_none hinput).symm.trans (hsame.call.trans hcall)
    have hinput : s.core.input (.received message callerId) =
        s.core.messageInput (s.calls.get c) callerId message := State.input_of_some hcall _
    rw [hinput] at hgone
    cases message with
    | answer id sdp =>
      by_cases hid : id = (s.calls.get c).signalingId
      · have hanswer : s.core.input (.received (.answer id sdp) callerId) = .answer := by
          rw [hinput, Session.messageInput, if_pos hid]
        rw [hanswer] at ht
        rcases ht.answer_cases with ⟨hclient, hs'⟩ | ⟨-, hnone, -⟩
        · exact ⟨hid, hsame.immediate.symm.trans (congrArg Session.immediate hs'), hclient⟩
        · exact nomatch hnone.symm.trans (hsame.call.trans hcall)
      · exact (hgone (by simp [Session.messageInput, hid])).elim
    | iceUpdate id sdp line mid =>
      refine (hgone ?_).elim
      rw [Session.messageInput, if_neg fun h => hmismatched.elim (· h.1) (· h.2.1)]
      simp
    | hangup id =>
      intro hcaller
      exact hgone (by simp [Session.messageInput, hcaller])
    | busy id => exact (hgone (by simp [Session.messageInput])).elim
  · intro hignored
    cases message with
    | answer id sdp =>
      obtain ⟨hid, himmediate, hclient⟩ := hignored
      have hstep : s.next (.received (.answer id sdp) callerId) =
          some (s.handleReceivedAnswer ⟨callerId⟩ id sdp) := rfl
      have ht := State.core_next hs hstep
      have hanswer : s.core.input (.received (.answer id sdp) callerId) = .answer := by
        rw [State.input_of_some hcall]
        exact if_pos hid
      rw [hanswer] at ht
      obtain ⟨-, hs'⟩ := ht.answer_cases.resolve_right fun hnone => hclient hnone.1
      refine ⟨_, hstep, congrArg Session.call hs', ?_, congrArg Session.client hs', ?_,
        congrArg Session.thread hs', (congrArg Session.immediate hs').trans himmediate.symm,
        congrArg Session.pending hs'⟩
      · exact congrArg (fun S => (S.calls.get c).state) hs'
      · intro client hclient
        have hterminated := congrArg (fun S => (S.clients.get client).terminated) hs'
        have hbefore := (congrArg Session.client hs').symm.trans hclient
        exact hterminated.trans (hs.client client hbefore).2
    | hangup id =>
      have hthread := State.thread_current hs hcall
      have hstep : s.next (.received (.hangup id) callerId) = some s := by
        have hidle : s.handleRemoteHangup ⟨callerId⟩ = s := by
          have hne : (s.calls.get c).remotePhoneNumber ≠ callerId := Ne.symm hignored
          simp [State.handleRemoteHangup, hthread, hne]
        exact congrArg some hidle
      exact ⟨s, hstep, rfl, rfl, rfl, fun client hclient => (hs.client client hclient).2, rfl, rfl,
        rfl⟩
    | iceUpdate | busy => exact hignored.elim

/-- A call is coming in. -/
def comingIn : List Event := [.receivedOffer 7 "offer" "+15550001" false]

/-- An ICE update of another contact, for another call, ends the call. -/
theorem undisturbed_counterexample :
    ∃ tr, callMachine.exec comingIn = some tr ∧ callMachine.Run tr ∧
      (callMachine.last tr).call = some 0 ∧
      Mismatched ((callMachine.last tr).calls.get 0) (.iceUpdate 8 "candidate" 0 "audio")
        "+15550002" ∧
      ¬ ∃ s', (callMachine.last tr).next
          (.received (.iceUpdate 8 "candidate" 0 "audio") "+15550002") = some s' ∧
        Undisturbed 0 (callMachine.last tr) s' := by
  have hexec : (callMachine.exec comingIn).map (fun tr => let s := callMachine.last tr
      (s.call, (s.calls.get 0).signalingId,
        (s.next (.received (.iceUpdate 8 "candidate" 0 "audio") "+15550002")).map (·.call))) =
      some (some 0, 7, some none) := by rfl
  obtain ⟨tr, htr, hget⟩ := Option.map_eq_some_iff.mp hexec
  simp only [Prod.mk.injEq] at hget
  obtain ⟨hcall, hid, hnext⟩ := hget
  refine ⟨tr, htr, Machine.run_of_exec htr, hcall, .inr (by simp [hid, CallMessage.id]), ?_⟩
  rintro ⟨s', hs', hsame⟩
  rw [hs'] at hnext
  have hnone : s'.call = none := Option.some.inj hnext
  exact nomatch hnone.symm.trans (hsame.call.trans hcall)

theorem undisturbed_iff_of_comingIn :
    ∃ tr, callMachine.exec comingIn = some tr ∧
      ((∃ s', (callMachine.last tr).next (.received (.hangup 8) "+15550002") = some s' ∧
          Undisturbed 0 (callMachine.last tr) s') ↔
        Ignored (callMachine.last tr) ((callMachine.last tr).calls.get 0) "+15550002"
          (.hangup 8)) := by
  have hexec : (callMachine.exec comingIn).map (fun tr => let s := callMachine.last tr
      (s.call, (s.calls.get 0).signalingId)) = some (some 0, 7) := by rfl
  obtain ⟨tr, htr, hget⟩ := Option.map_eq_some_iff.mp hexec
  simp only [Prod.mk.injEq] at hget
  exact ⟨tr, htr, undisturbed_iff (Machine.run_of_exec htr) hget.1
    (.inr (by simp [hget.2, CallMessage.id]))⟩

/-! ### Obsolete continuations -/

/-- What the promises of earlier calls should leave alone. -/
structure Unaffected (c : CallRef) (s s' : State) : Prop where
  call : s'.call = s.call
  state : (s'.calls.get c).state = (s.calls.get c).state
  client : s'.peerConnectionClient = s.peerConnectionClient
  thread : s'.thread = s.thread
  promise : s'.fulfillCallConnectedPromise = s.fulfillCallConnectedPromise
  pending : s'.pendingIceUpdateMessages = s.pendingIceUpdateMessages

/-- The continuations of a call `d` that leave the current call `c` alone. -/
def Harmless (s : State) (c d : CallRef) : Continuation → Prop
  | .iceServers _ => s.setUp d ≠ .iceServers none
  | .offer _ => s.peerConnectionClient ≠ none
  | .sent => (s.calls.get d).direction = .incoming
  | .caught => (s.calls.get d).direction = .incoming ∨
      ∀ error, s.setUp d = .failed error → error.asCallError.isTimeoutOfOther c = true
  | .remoteDescriptionRejected _ => False
  | _ => True

/-- The event occurs and leaves the current call alone. -/
abbrev LeavesAlone (c : CallRef) (s : State) (e : Event) : Prop :=
  ∃ s', s.next e = some s' ∧ Unaffected c s s'

theorem unaffected_setSetUp (s : State) (c d : CallRef) (stage : SetUp) :
    Unaffected c s (s.setSetUp d stage) := ⟨rfl, rfl, rfl, rfl, rfl, rfl⟩

section
variable {s s₁ : State} {c d : CallRef}

theorem leavesAlone_iff {e : Event} (hturn : s.turn e = some (.ok s₁)) :
    LeavesAlone c s e ↔ Unaffected c s s₁ := by
  simp [LeavesAlone, State.next, hturn, Except.toOption]

theorem not_unaffected_of_ended (hcall : s.call = some c) (hended : s₁.call = none) :
    ¬ Unaffected c s s₁ := by
  intro hsame
  cases hended.symm.trans (hsame.call.trans hcall)

/-- The sibling path checks that its call is still current. -/
theorem unaffected_guardCurrent (hother : s.call ≠ some d) (description : String) (rest : State) :
    Unaffected c s (s.guardCurrent d description rest) := by
  rw [State.guardCurrent, if_neg hother]
  exact unaffected_setSetUp s c d _

/-- An outgoing call gets its client whether or not it is still current. -/
theorem not_unaffected_outgoingIceServers (hs : s.core.WellFormed) (iceServers : List RTCIceServer) :
    ¬ Unaffected c s (s.outgoingIceServers d iceServers) := by
  intro hsame
  have hlt := (hs.client s.clients.next hsame.client.symm).1
  exact Nat.lt_irrefl _ hlt

/-- When the offer of an outgoing call is sent, its promise takes the place of another call's. -/
theorem not_unaffected_raceConnectedPromise (hs : s.core.WellFormed)
    (hsetUp : s.setUp d = .sending) : ¬ Unaffected c s (s.raceConnectedPromise d) := by
  intro hsame
  have hlate := hs.promise d hsame.promise.symm
  simp [hsetUp, SetUp.isLate] at hlate

theorem unaffected_incomingCatch (hother : s.call ≠ some d) (error : Error) :
    Unaffected c s (s.incomingCatch d error) := by
  have hother' : (s.setSetUp d .caught).call ≠ some d := hother
  unfold State.incomingCatch
  dsimp only
  rw [if_neg hother']
  exact unaffected_setSetUp s c d _

/-- The `catch` of an outgoing call fails whichever call is current, except for a timeout. -/
theorem unaffected_outgoingCatch_iff (hs : s.core.WellFormed) (hcall : s.call = some c)
    {error : Error} (hsetUp : s.setUp d = .failed error) :
    Unaffected c s (s.outgoingCatch d error) ↔ error.asCallError.isTimeoutOfOther c = true := by
  have hcall' : (s.setSetUp d .caught).call = some c := hcall
  have hwf : (s.setSetUp d .caught).core.WellFormed :=
    hs.stage (by simp [hsetUp]) fun _ => rfl
  rw [State.outgoingCatch]
  cases htimeout : error.asCallError.isTimeoutOfOther c with
  | true =>
    have hskip : (s.setSetUp d .caught).handleFailedCall error.asCallError =
        s.setSetUp d .caught := by
      simp [State.handleFailedCall, hcall', htimeout]
    rw [hskip]
    exact iff_of_true (unaffected_setSetUp s c d _) rfl
  | false =>
    refine iff_of_false (not_unaffected_of_ended hcall ?_) Bool.false_ne_true
    exact congrArg Session.call (State.core_handleFailedCall hwf hcall' htimeout)

/-- A rejected description of the other side's fails the current call, whichever it is. -/
theorem not_unaffected_handleFailedCall (hs : s.core.WellFormed) (hcall : s.call = some c)
    (error : NSError) : ¬ Unaffected c s ({ s with
      remoteDescriptions := s.remoteDescriptions.erase d }.handleFailedCall
        (.externalError error)) := by
  refine not_unaffected_of_ended hcall ?_
  have hcore := State.core_handleFailedCall
    (s := { s with remoteDescriptions := s.remoteDescriptions.erase d }) hs hcall
    (show (CallError.externalError error).isTimeoutOfOther c = false from rfl)
  exact congrArg Session.call hcore

theorem unaffected_endBackgroundTask (s : State) (c d : CallRef) (stage : SetUp) :
    Unaffected c s ((s.setSetUp d stage).endBackgroundTask d) := by
  unfold State.endBackgroundTask
  split_ifs <;> exact ⟨rfl, rfl, rfl, rfl, rfl, rfl⟩

theorem unaffected_backgroundTimeout (hother : s.call ≠ some d) :
    Unaffected c s ((s.setBackgroundTask d .ended).backgroundTimeout d) := by
  have hother' : (s.setBackgroundTask d .ended).call ≠ some d := hother
  rw [State.backgroundTimeout, if_neg hother']
  exact ⟨rfl, rfl, rfl, rfl, rfl, rfl⟩

end

theorem unaffected_iff {tr : Trace} (h : callMachine.Run tr) {c d : CallRef}
    (hcall : (callMachine.last tr).call = some c) (hne : d ≠ c) {k : Continuation}
    (henabled : (callMachine.last tr).turn (.continuation d k) ≠ none) :
    (∃ s', (callMachine.last tr).next (.continuation d k) = some s' ∧
        Unaffected c (callMachine.last tr) s') ↔
      Harmless (callMachine.last tr) c d k := by
  have hs := wellFormed_of_run h
  generalize callMachine.last tr = s at hs hcall henabled ⊢
  have hother : s.call ≠ some d := fun hd => hne (Option.some.inj (hd.symm.trans hcall))
  change LeavesAlone c s (.continuation d k) ↔ Harmless s c d k
  obtain ⟨r, hturn⟩ := Option.ne_none_iff_exists'.mp henabled
  have hcontinues : s.Continues d k r := State.continues_of_continuation hturn
  have hsame {s₁ : State} (h₁ : r = .ok s₁) : LeavesAlone c s (.continuation d k) ↔
      Unaffected c s s₁ := leavesAlone_iff (h₁ ▸ hturn)
  cases hcontinues with
  | outgoingIceServers result hsetUp =>
    rw [hsame rfl]
    exact iff_of_false (not_unaffected_outgoingIceServers hs _) fun hharmless => hharmless hsetUp
  | incomingIceServers result hsetUp =>
    rw [hsame rfl]
    refine iff_of_true (unaffected_guardCurrent hother _ _) ?_
    simp [Harmless, hsetUp]
  | offer sdp hsetUp hclient =>
    rw [hsame rfl]
    refine iff_of_true ⟨rfl, rfl, rfl, rfl, rfl, rfl⟩ ?_
    simp [Harmless, hclient]
  | noClient sdp hsetUp hclient =>
    refine iff_of_false ?_ fun hharmless => hharmless hclient
    rintro ⟨s', hstep, -⟩
    simp [State.next, hturn, Except.toOption] at hstep
  | outgoingSent hsetUp hdirection =>
    rw [hsame rfl]
    refine iff_of_false (not_unaffected_raceConnectedPromise hs hsetUp) ?_
    simp [Harmless, hdirection]
  | incomingSent hsetUp hdirection =>
    rw [hsame rfl]
    exact iff_of_true (unaffected_guardCurrent hother _ _) hdirection
  | @outgoingCaught error hsetUp hdirection =>
    rw [hsame rfl, unaffected_outgoingCatch_iff hs hcall hsetUp]
    simp [Harmless, hdirection, hsetUp]
  | incomingCaught hsetUp hdirection =>
    rw [hsame rfl]
    exact iff_of_true (unaffected_incomingCatch hother _) (.inl hdirection)
  | remoteDescriptionRejected error =>
    rw [hsame rfl]
    exact iff_of_false (not_unaffected_handleFailedCall hs hcall error) id
  -- the others only advance the set-up of their own call
  | negotiated =>
    rw [hsame rfl]
    exact iff_of_true (unaffected_guardCurrent hother _ _) trivial
  | finished =>
    rw [hsame rfl]
    exact iff_of_true (unaffected_endBackgroundTask s c d _) trivial
  | backgroundTimeout =>
    rw [hsame rfl]
    exact iff_of_true (unaffected_backgroundTimeout hother) trivial
  | localDescription | rejected | connectingTimeout | remoteDescription | messageSettled
  | backgroundTaskExpired =>
    rw [hsame rfl]
    exact iff_of_true ⟨rfl, rfl, rfl, rfl, rfl, rfl⟩ trivial

/-- An outgoing call is hung up before it has its ICE servers. Another call is coming in. -/
def hungUpBeforeNext : List Event :=
  [.user (.newOutgoingCall "+15550001" 5), .user (.handleOutgoingCall 0),
    .user (.handleLocalHungupCall 0), .receivedOffer 7 "offer" "+15550002" false]

/-- The ICE servers of the ended call give the new one a client. -/
theorem unaffected_counterexample :
    ∃ tr, callMachine.exec hungUpBeforeNext = some tr ∧ callMachine.Run tr ∧
      ((callMachine.last tr).calls.get 0).state = .localFailure ∧
      (callMachine.last tr).call = some 1 ∧
      ∃ s', (callMachine.last tr).next
          (.continuation 0 (.iceServers (.ok ⟨"password", "username", []⟩))) = some s' ∧
        ¬ Unaffected 1 (callMachine.last tr) s' := by
  have hexec : (callMachine.exec hungUpBeforeNext).map (fun tr => let s := callMachine.last tr
      ((s.calls.get 0).state, s.call, s.peerConnectionClient,
        (s.next (.continuation 0 (.iceServers (.ok ⟨"password", "username", []⟩)))).map
          (·.peerConnectionClient))) =
      some (.localFailure, some 1, none, some (some 0)) := by rfl
  obtain ⟨tr, htr, hget⟩ := Option.map_eq_some_iff.mp hexec
  simp only [Prod.mk.injEq] at hget
  obtain ⟨hstate, hcall, hclient, hnext⟩ := hget
  obtain ⟨s', hs', hclient'⟩ := Option.map_eq_some_iff.mp hnext
  refine ⟨tr, htr, Machine.run_of_exec htr, hstate, hcall, s', hs', fun hsame => ?_⟩
  exact nomatch hclient'.symm.trans (hsame.client.trans hclient)

theorem unaffected_iff_of_hungUpBeforeNext :
    ∃ tr, callMachine.exec hungUpBeforeNext = some tr ∧
      ((∃ s', (callMachine.last tr).next
            (.continuation 0 (.iceServers (.ok ⟨"password", "username", []⟩))) = some s' ∧
          Unaffected 1 (callMachine.last tr) s') ↔
        Harmless (callMachine.last tr) 1 0 (.iceServers (.ok ⟨"password", "username", []⟩))) := by
  have hexec : (callMachine.exec hungUpBeforeNext).map (fun tr => let s := callMachine.last tr
      (s.call, (s.turn (.continuation 0
        (.iceServers (.ok ⟨"password", "username", []⟩)))).isSome)) = some (some 1, true) := by rfl
  obtain ⟨tr, htr, hget⟩ := Option.map_eq_some_iff.mp hexec
  simp only [Prod.mk.injEq] at hget
  obtain ⟨hcall, hturn⟩ := hget
  refine ⟨tr, htr, unaffected_iff (Machine.run_of_exec htr) hcall (by decide) fun hnone => ?_⟩
  exact nomatch hturn.symm.trans (congrArg Option.isSome hnone)

end SignalIOS.Call
