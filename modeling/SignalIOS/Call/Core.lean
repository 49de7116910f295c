import SignalIOS.Call.WellFormed

/-! What the primitive operations of the call service do to its session. -/
namespace SignalIOS.Call
open SignalIOS.Lib

namespace Session
variable {S : Session} {c : CallRef}

theorem forCall_of_some (hcall : S.call = some c) (f : SignalCall → SignalCall) :
    S.forCall f = S.calls.modify c f := by
  rw [forCall, hcall]

/-- A change of state and the end of the call make up one change. -/
theorem clear_ring (hcall : S.call = some c) (state : CallState) :
    (S.ring c state).clear = S.finish c fun k => { k with state } := by
  have hclients : (S.ring c state).forClient (fun k => { k with terminated := true }) =
      S.forClient fun k => { k with localVideoEnabled := some false, terminated := true } := by
    cases hclient : S.client with
    | none => simp [forClient, hclient]
    | some client =>
      simp [forClient, hclient, Heap.modify_modify]
      rfl
  simp only [clear, hclients, forCall_of_some (S := S.ring c state) hcall]
  rw [ring_calls, Heap.modify_modify]
  rfl

def recordConnected (S : Session) (c : CallRef) : Session :=
  { S with
    records := if (S.calls.get c).state = .connected then S.complete c else S.records }

def setCallState (S : Session) (c : CallRef) (state : CallState) : Session :=
  ({ S with calls := S.calls.modify c fun k => { k with state } }.recordConnected c).syncVideo

theorem setCallState_of_ne (hcall : S.call = some c) {state : CallState}
    (hstate : state ≠ .connected) :
    S.setCallState c state = S.ring c state := by
  have hbeq : (state == CallState.connected) = false := by simpa using hstate
  simp [setCallState, recordConnected, hstate, syncVideo, ring, hcall, video, hbeq, forClient]

theorem setCallState_connected {client : ClientRef} (hcall : S.call = some c)
    (hclient : S.client = some client) :
    S.setCallState c .connected =
      { S with
        calls := S.calls.modify c fun k => { k with state := .connected }
        records := S.complete c
        clients := S.clients.modify client
          (requestVideo (!S.inBackground && (S.calls.get c).hasLocalVideo)) } := by
  simp [setCallState, recordConnected, syncVideo, hcall, video, forClient, hclient]
  simp [complete]

theorem completed_completed (t : RPRecentCallType) : completed (completed t) = completed t := by
  cases t <;> rfl

theorem complete_recordConnected (S : Session) (c : CallRef) :
    (S.recordConnected c).complete c = S.complete c := by
  unfold recordConnected complete
  cases hrecord : (S.calls.get c).callRecord with
  | none => simp
  | some record =>
    simp only
    split_ifs
    · rw [Heap.modify_modify]
      simp [Function.comp_def, completed_completed]
    · rfl

/-- Completing the record first makes no difference to a call that connects. -/
theorem connect_recordConnected (S : Session) (c : CallRef) (client : ClientRef) :
    (S.recordConnected c).connect c client = S.connect c client := by
  unfold connect
  rw [complete_recordConnected]
  rfl

/-- A new incomplete record for the current call `c`. -/
def record (S : Session) (c : CallRef) : Session :=
  let number := (S.calls.get c).remotePhoneNumber
  { S with
    records := S.records.alloc ⟨number, .incomingIncomplete, ⟨number⟩, true, c⟩
    calls := S.calls.modify c fun k => { k with callRecord := some S.records.next } }

theorem connect_record (S : Session) (c : CallRef) (client : ClientRef) :
    (S.record c).connect c client = S.answer c client := by
  have hclient : (S.record c).connectClient c = S.connectClient c := by
    funext k
    simp [record, connectClient]
  have hrecords : (S.record c).complete c = (S.answer c client).records := by
    simp [record, complete, completed]
  have hcalls : ((S.record c).calls.modify c fun k => { k with state := .connected }) =
      (S.answer c client).calls := by
    simp [record, Function.comp_def]
  unfold connect
  rw [hclient, hrecords, hcalls]
  rfl

theorem requestVideo_comp (a b : Bool) : requestVideo b ∘ requestVideo a = requestVideo b := rfl

theorem syncVideo_syncVideo (S : Session) : S.syncVideo.syncVideo = S.syncVideo := by
  have hvideo : S.syncVideo.video = S.video := rfl
  have hclients : S.syncVideo.syncVideo.clients = S.syncVideo.clients := by
    cases hcall : S.call with
    | none => simp [hcall]
    | some c =>
      cases hclient : S.client with
      | none => simp [hcall, forClient, hclient]
      | some client => simp [hcall, forClient, hclient, hvideo, requestVideo_comp]
  rw [syncVideo, ← syncVideo_clients, hclients]

theorem stage_place (S : Session) (c : CallRef) (state : CallState) (a b : SetUp) :
    (S.place c state a).stage c b = S.place c state b := by
  have hsetUp : (fun d => if d = c then b else (S.place c state a).setUp d) =
      fun d => if d = c then b else S.setUp d := by
    funext d
    rw [place_setUp]
    split_ifs <;> rfl
  rw [stage, hsetUp]
  rfl

theorem ring_place (S : Session) (c : CallRef) (state state' : CallState) (a : SetUp) :
    (S.place c state a).ring c state' = S.place c state' a := by
  have hcalls : ((S.place c state a).ring c state').calls = (S.place c state' a).calls := by
    simp [Function.comp_def]
  have hclients : ((S.place c state a).ring c state').clients = (S.place c state' a).clients := by
    cases hclient : S.client with
    | none => simp [forClient, hclient]
    | some client => simp [forClient, hclient, requestVideo_comp]
  rw [ring, ← ring_calls, ← ring_clients, hcalls, hclients]
  rfl

end Session

namespace State
variable {s : State} {c : CallRef}

/-- Effects that are neither ICE updates nor reports of missed calls. -/
theorem core_emit (s : State) {effect : Effect} (hice : effect.iceUpdates = [])
    (hmissed : effect.missed = []) : (s.emit effect).core = s.core := by
  simp [core, emit, hice, hmissed]

theorem core_setSetUp (s : State) (c : CallRef) (stage : SetUp) :
    (s.setSetUp c stage).core = s.core.stage c stage := rfl

theorem core_updateIsVideoEnabled (s : State) :
    s.updateIsVideoEnabled.core = s.core.syncVideo := by
  unfold updateIsVideoEnabled
  cases hcall : s.call with
  | none => simp [core, Session.syncVideo, hcall]
  | some c =>
    cases hclient : s.peerConnectionClient with
    | none => simp [core, Session.syncVideo, Session.forClient, hclient, hcall]
    | some client =>
      simp only
      rw [core_emit _ rfl rfl]
      have hclients : s.core.syncVideo.clients =
          s.clients.modify client (Session.requestVideo s.shouldHaveLocalVideoTrack) := by
        simp only [Session.syncVideo_clients, core_call, hcall, Session.forClient, core_client,
          hclient]
        rfl
      rw [Session.syncVideo, ← Session.syncVideo_clients, hclients]
      rfl

theorem notifyObservers_of_callService {callback : State → State}
    (hc : (s.calls.get c).observers = [.callService]) :
    s.notifyObservers c callback = callback s := by
  simp [notifyObservers, hc]

theorem core_updateCallRecordType (s : State) (c : CallRef) :
    (s.updateCallRecordType c).core = s.core.recordConnected c := by
  unfold updateCallRecordType Session.recordConnected
  cases hrecord : (s.calls.get c).callRecord with
  | none => simp [core, Session.complete, hrecord]
  | some record =>
    have hcomplete (t : RPRecentCallType)
        (ht : Session.completed (s.records.get record).callType = t) :
        s.core.complete c = s.records.modify record fun r => { r with callType := t } := by
      simp only [Session.complete, core_calls, hrecord, core_records]
      exact Heap.modify_congr (by rw [ht])
    by_cases hc : (s.calls.get c).state = .connected
    · simp only [core_calls, if_pos hc]
      cases htype : (s.records.get record).callType with
      | outgoingIncomplete =>
        rw [hcomplete .outgoing (by rw [htype]; rfl)]
        rfl
      | incomingIncomplete =>
        rw [hcomplete .incoming (by rw [htype]; rfl)]
        rfl
      | _ =>
        rw [hcomplete (s.records.get record).callType (by rw [htype]; rfl), Heap.modify_eq_self rfl]
        rfl
    · simp only [core_calls, if_neg hc]
      rfl

theorem core_setCallState (hc : (s.calls.get c).observers = [.callService]) (state : CallState) :
    (s.setCallState c state).core = s.core.setCallState c state := by
  have hcore := core_updateCallRecordType
    { s with calls := s.calls.modify c fun k => { k with state } } c
  have hcalls := congrArg Session.calls hcore
  unfold setCallState
  rw [notifyObservers_of_callService, stateDidChange, core_updateIsVideoEnabled, hcore]
  · rfl
  · rw [← core_calls, hcalls]
    simpa [Session.recordConnected] using hc

/-- A call without observers and record. -/
theorem setCallState_of_unobserved (hc : (s.calls.get c).observers = [])
    (hrecord : (s.calls.get c).callRecord = none) (state : CallState) :
    s.setCallState c state = { s with calls := s.calls.modify c fun k => { k with state } } := by
  simp [setCallState, updateCallRecordType, notifyObservers, hrecord, hc]

theorem core_setCallState_of_ne (hcall : s.call = some c)
    (hc : (s.calls.get c).observers = [.callService]) {state : CallState}
    (hstate : state ≠ .connected) : (s.setCallState c state).core = s.core.ring c state := by
  rw [core_setCallState hc, Session.setCallState_of_ne hcall hstate]

theorem core_terminateCall (s : State) : s.terminateCall.core = s.core.clear := by
  cases hclient : s.peerConnectionClient with
  | none =>
    cases hcall : s.call with
    | none =>
      simp [terminateCall, setCall, updateIsVideoEnabled, core, Session.clear, Session.forClient,
        Session.forCall, hclient, hcall]
    | some c =>
      simp [terminateCall, setCall, updateIsVideoEnabled, core, Session.clear, Session.forClient,
        Session.forCall, hclient, hcall, removeAllObservers, removeObserver]
      rfl
  | some client =>
    cases hcall : s.call with
    | none =>
      simp [terminateCall, setCall, updateIsVideoEnabled, core, Session.clear, Session.forClient,
        Session.forCall, hclient, hcall, terminateClient]
    | some c =>
      simp [terminateCall, setCall, updateIsVideoEnabled, core, Session.clear, Session.forClient,
        Session.forCall, hclient, hcall, removeAllObservers, removeObserver, terminateClient]
      rfl

theorem core_end (hcall : s.call = some c) (hc : (s.calls.get c).observers = [.callService])
    {state : CallState} (hstate : state ≠ .connected) {effect : Effect}
    (hice : effect.iceUpdates = []) (hmissed : effect.missed = []) :
    ((s.setCallState c state).emit effect).terminateCall.core =
      s.core.finish c fun k => { k with state } := by
  rw [core_terminateCall, core_emit _ hice hmissed, core_setCallState_of_ne hcall hc hstate,
    Session.clear_ring hcall]

theorem core_handleFailedCall_of_none (hcall : s.call = none) (error : CallError) :
    (s.handleFailedCall error).core = s.core.clear := by
  simp only [handleFailedCall, hcall]
  exact core_terminateCall s

theorem input_of_some (hcall : s.call = some c) (e : Event) :
    s.core.input e = s.core.currentInput c e := by
  simp [Session.input, hcall]

/-- The pending ICE updates are sent with the answer. -/
theorem core_sendPendingIceUpdates (s : State) (thread : TSContactThread) :
    (s.sendPendingIceUpdates thread).core = s.core.sendPending := by
  unfold sendPendingIceUpdates
  dsimp only
  split_ifs with hpending
  · simp [core, emit, Session.sendPending, Effect.iceUpdates, Effect.missed]
  · have hnil : s.pendingIceUpdateMessages = [] := by
      simpa using hpending
    simp [core, Session.sendPending, hnil]

theorem core_insertCallRecord (s : State) (c : CallRef) (number : String)
    (callType : RPRecentCallType) (thread : TSContactThread) :
    (s.insertCallRecord c number callType thread).core =
      ({ s.core with
          records := s.records.alloc ⟨number, callType, thread, true, c⟩
          calls := s.calls.modify c fun k => { k with callRecord := some s.records.next } } :
        Session).recordConnected c := by
  unfold insertCallRecord setCallRecord
  rw [core_updateCallRecordType]
  rfl

theorem core_reportMissedCall (s : State) (c : CallRef) :
    (s.emit (.reportMissedCall c)).core = { s.core with missed := s.core.missed ++ [c] } := by
  simp [core, emit, Effect.iceUpdates, Effect.missed]

theorem core_handleMissedCall (hstate : (s.calls.get c).state ≠ .connected) :
    (s.handleMissedCall c ⟨(s.calls.get c).remotePhoneNumber⟩).core = s.core.miss c := by
  unfold handleMissedCall
  cases hrecord : (s.calls.get c).callRecord with
  | none =>
    simp only
    rw [core_reportMissedCall, core_insertCallRecord]
    simp [Session.recordConnected, hstate, Session.miss, hrecord]
  | some record =>
    have hmiss (f : TSCall → TSCall) (hf : f (s.records.get record) = { s.records.get record with
        callType := if (s.records.get record).callType = .incoming then .missed
          else (s.records.get record).callType }) :
        s.core.miss c =
          { s.core with missed := s.core.missed ++ [c], records := s.records.modify record f } := by
      simp only [Session.miss, core_calls, hrecord]
      rw [Heap.modify_congr hf.symm]
      rfl
    simp only
    rw [core_reportMissedCall]
    split_ifs with htype
    · rw [hmiss (fun r => { r with callType := .missed }) (by rw [if_pos htype])]
      rfl
    · rw [hmiss id (by rw [if_neg htype]; rfl), Heap.modify_id]
      rfl

theorem core_handleMissedByHangup (s : State) (c : CallRef) :
    (s.handleMissedByHangup c ⟨(s.calls.get c).remotePhoneNumber⟩).core =
      if (s.calls.get c).state.isMissedByHangup then s.core.miss c else s.core := by
  unfold handleMissedByHangup
  cases hstate : (s.calls.get c).state with
  | connected | localHangup | remoteHangup => rfl
  | _ => exact core_handleMissedCall (by simp [hstate])

theorem core_fulfill (s : State) : s.fulfill.core = { s.core with setUp := s.core.fulfilled } := by
  have hfulfilled (h : ∀ d, s.core.fulfilled d = s.setUp d) :
      s.core = { s.core with setUp := s.core.fulfilled } := by
    rw [funext h]
    rfl
  unfold fulfill
  cases hpromise : s.fulfillCallConnectedPromise with
  | none => exact hfulfilled fun d => by simp [Session.fulfilled, hpromise]
  | some d =>
    simp only
    split_ifs with hrace
    · have : (fun d' => if d' = d then .connected else s.setUp d') = s.core.fulfilled := by
        funext d'
        by_cases hd : d' = d
        · simp [Session.fulfilled, hpromise, hd, hrace]
        · simp [Session.fulfilled, hpromise, hd, Ne.symm hd]
      rw [← this]
      rfl
    · refine hfulfilled fun d' => ?_
      by_cases hd : d' = d
      · simp [Session.fulfilled, hd, hrace]
      · simp [Session.fulfilled, hpromise, Ne.symm hd]

/-- A busy call is recorded and reported as missed. -/
theorem core_handleLocalBusyCall (s : State) (number : String) (id : UInt64) :
    (handleLocalBusyCall { s with calls := s.calls.alloc (.incomingCall number id) } s.calls.next
      ⟨number⟩).core = s.core.turnAway number id := by
  have hmissed := core_handleMissedCall (c := s.calls.next)
    (s := { s with calls := s.calls.alloc (.incomingCall number id) }.emit
      (.sendCallMessage ⟨⟨number⟩, .busyMessage id⟩)) (by simp [emit, SignalCall.incomingCall])
  unfold handleLocalBusyCall
  simp only [emit, Heap.get_alloc_self, SignalCall.incomingCall] at hmissed ⊢
  rw [hmissed]
  simp [core, Session.miss, Session.turnAway, SignalCall.incomingCall, Effect.iceUpdates,
    Effect.missed]

end State
end SignalIOS.Call
