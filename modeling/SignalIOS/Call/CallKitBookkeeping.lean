import SignalIOS.Call.AdapteeCalls
import SignalIOS.Call.CallKit
import SignalIOS.Call.Occurrences
import Mathlib.Data.List.Nodup

/-! Which calls the CallKit adaptee lists, and what its actions do to the current call. -/
namespace SignalIOS.Call
open SignalIOS.Lib

namespace Session
variable {S S' : Session} {e : Event} {i : Input} {c : CallRef}

/-- The ways in which a turn can bring `c` to a terminal state. The last one is an outgoing call
that is refused. -/
def Ends (S : Session) (e : Event) (i : Input) (c : CallRef) : Prop :=
  S.call = some c ∧ (S.Fails i ∨ i = .userDeclines ∨ i = .remoteHangup ∨ i = .remoteBusy) ∨
    e = .user (.handleOutgoingCall c) ∧ (S.call ≠ none ∨ S.client ≠ none)

/-- What a turn does to the state of `c`. -/
def ChangesState (S : Session) (e : Event) (i : Input) (S' : Session) (c : CallRef) : Prop :=
  (S'.calls.get c).state = (S.calls.get c).state ∨
    (S'.calls.get c).state ≠ .answering ∧ ((S'.calls.get c).state.isTerminal = true → S.Ends e i c)

theorem changesState_of_modify {d : CallRef} {f : SignalCall → SignalCall} {calls : Heap SignalCall}
    (h : S'.calls = calls.modify d f) (hcalls : (calls.get c).state = (S.calls.get c).state)
    (hf : (f (calls.get c)).state ≠ .answering)
    (hterminal : d = c → (f (calls.get c)).state.isTerminal = true → S.Ends e i c) :
    S.ChangesState e i S' c := by
  unfold ChangesState
  rw [h, Heap.get_modify]
  split_ifs with hd
  · exact .inr ⟨hf, hterminal hd.symm⟩
  · exact .inl hcalls

theorem Ending.changesState (ht : S.Ending e i S') : S.ChangesState e i S' c := by
  cases ht with
  | localHangup e hcall =>
    exact changesState_of_modify (finish_calls _ _ _) rfl (by simp)
      fun hd _ => .inl ⟨hd ▸ hcall, .inr (.inl rfl)⟩
  | remoteHangup e hcall =>
    exact changesState_of_modify (finish_calls _ _ _) rfl (by simp)
      fun hd _ => .inl ⟨hd ▸ hcall, .inr (.inr (.inl rfl))⟩
  | missed e hcall =>
    exact changesState_of_modify (finish_calls _ _ _) (by rw [miss_calls_get]) (by simp)
      fun hd _ => .inl ⟨hd ▸ hcall, .inr (.inr (.inl rfl))⟩
  | remoteBusy e hcall =>
    exact changesState_of_modify (finish_calls _ _ _) rfl (by simp)
      fun hd _ => .inl ⟨hd ▸ hcall, .inr (.inr (.inr rfl))⟩
  | reset | cleared => exact .inl (clear_proj SignalCall.state S (fun _ => rfl) c)
  | caughtCleared => exact .inl (clear_proj SignalCall.state (S.stage _ .caught) (fun _ => rfl) c)
  | failed e i error hcall hi =>
    refine changesState_of_modify (finish_calls _ _ _) rfl (by simp)
      fun hd _ => .inl ⟨hd ▸ hcall, .inl ?_⟩
    exact hi.imp_right fun h => ⟨h.1, .inr h.2⟩
  | answerFailed e error hcall hclient =>
    exact changesState_of_modify (finish_calls S.sendPending _ _) rfl (by simp)
      fun hd _ => .inl ⟨hd ▸ hcall, .inl (.inr ⟨hclient, .inl rfl⟩)⟩
  | caughtFailed error hcall =>
    exact changesState_of_modify (finish_calls (S.stage _ .caught) _ _) rfl (by simp)
      fun hd _ => .inl ⟨hd ▸ hcall, .inl (.inl rfl)⟩

theorem Turn.changesState (ht : S.Turn e i S') (hc : c < S.calls.next) :
    S.ChangesState e i S' c := by
  cases ht with
  | ended h => exact h.changesState
  | aside h =>
    cases h with
    | created => exact .inl (by rw [create_calls, Heap.get_alloc_of_lt _ _ hc])
    | turnedAway => exact .inl (by rw [turnAway_calls, Heap.get_alloc_of_lt _ _ hc])
    | refused hcd hd =>
      exact changesState_of_modify (refuse_calls _ _) rfl (by simp)
        fun hd' _ => .inr ⟨hd' ▸ rfl, .inl (by simp [hd])⟩
    | advanced | raced => exact .inl rfl
  | placed hcd =>
    exact changesState_of_modify (place_calls _ _ _ _) rfl (by simp) (by simp [CallState.isTerminal])
  | placedStale hcd hcall hclient =>
    exact changesState_of_modify (place_calls _ _ _ _) rfl (by simp)
      fun hd _ => .inr ⟨hd ▸ rfl, .inr (by simp [hclient])⟩
  | offered => exact .inl (by rw [offer_calls, Heap.get_alloc_of_lt _ _ hc])
  | rang e hcall hring =>
    rcases hring with ⟨-, rfl⟩ | ⟨-, rfl⟩
    · exact changesState_of_modify (ring_calls _ _ _) rfl (by simp) (by simp [CallState.isTerminal])
    · exact changesState_of_modify (ring_calls _ _ _) rfl (by simp) (by simp [CallState.isTerminal])
  | connected =>
    exact changesState_of_modify (connect_calls _ _ _) rfl (by simp) (by simp [CallState.isTerminal])
  | answered =>
    exact changesState_of_modify (answer_calls _ _ _) rfl (by simp) (by simp [CallState.isTerminal])
  | muted => exact .inl (Heap.proj_of_eq_modify _ (mute_calls S _ _ _) (fun _ => rfl) c)
  | videoSet => exact .inl (Heap.proj_of_eq_modify _ (setVideo_calls S _ _ _) (fun _ => rfl) c)
  | _ => exact .inl rfl

end Session
/-! ### Turns of the call service under the adaptee -/

namespace CallKitCallUIAdaptee
variable {k k' : CallKitCallUIAdaptee} {e : Event} {c : CallRef}

/-- Of the calls of the adaptee, only failures and incoming calls concern the call manager. -/
theorem foldl_receive (effects : List Effect) (k : CallKitCallUIAdaptee) :
    effects.foldl receive k =
      { k with calls := k.calls.diff (effects.flatMap Effect.failed)
               reported := k.reported ++ effects.flatMap Effect.reported } := by
  induction effects generalizing k with
  | nil => simp
  | cons effect effects ih =>
    rw [List.foldl_cons, ih, List.flatMap_cons, List.flatMap_cons]
    cases effect with
    | failCall call error => simp [receive, removeCall, Effect.failed, Effect.reported]
    | reportIncomingCall call thread => simp [receive, Effect.failed, Effect.reported]
    | _ => rfl

/-- What a turn of the call service does to the adaptee. -/
theorem callServiceTurn_eq (hk : k.callService.core.WellFormed)
    (h : k.callServiceTurn e = some k') :
    k.callService.next e = some k'.callService ∧
      k' = { k with callService := k'.callService
                    calls := k.calls.diff (k.callService.failedBy e)
                    reported := k.reported ++ k.callService.reportedBy e } := by
  obtain ⟨s, hnext, rfl⟩ := Option.map_eq_some_iff.mp h
  obtain ⟨effects, hlog, hfailed, hreported⟩ := State.speaks_next hk hnext
  rw [hlog, List.drop_left, foldl_receive, hfailed, hreported]
  exact ⟨hnext, rfl⟩

/-- What holds of the lists of the adaptee in every run. -/
structure Sound (k : CallKitCallUIAdaptee) : Prop where
  wellFormed : k.callService.core.WellFormed
  nodup : (k.calls ++ k.reported).Nodup
  known : ∀ c ∈ k.calls ++ k.reported, c < k.callService.calls.next ∧
    (k.callService.calls.get c).state ≠ .answering

theorem sound_initial : initial.Sound where
  wellFormed := Session.WellFormed.initial
  nodup := List.nodup_nil
  known _ hc := nomatch hc

/-- A call that a turn reports was new to the adaptee. -/
theorem Sound.not_mem_of_reported (hk : k.Sound)
    (h : k.callService.next e = some k'.callService) (hc : c ∈ k.callService.reportedBy e) :
    c ∉ k.calls ++ k.reported := by
  intro hmem
  obtain ⟨-, -, hstate, -⟩ := State.reportedBy_cases hk.wellFormed h hc
  exact (hk.known c hmem).2 hstate

theorem callServiceTurn_reported (hk : k.callService.core.WellFormed)
    (h : k.callServiceTurn e = some k') :
    k'.reported = k.reported ++ k.callService.reportedBy e := by
  rw [(callServiceTurn_eq hk h).2]

theorem callServiceTurn_calls (hk : k.callService.core.WellFormed)
    (h : k.callServiceTurn e = some k') :
    k'.calls = k.calls.diff (k.callService.failedBy e) := by
  rw [(callServiceTurn_eq hk h).2]

theorem sublist_of_callServiceTurn (hk : k.callService.core.WellFormed)
    (h : k.callServiceTurn e = some k') :
    List.Sublist (k'.calls ++ k.reported) (k.calls ++ k.reported) := by
  rw [callServiceTurn_calls hk h]
  exact (List.diff_sublist _ _).append_right _

theorem mem_of_callServiceTurn (hk : k.callService.core.WellFormed)
    (h : k.callServiceTurn e = some k') (hc : c ∈ k'.calls ++ k'.reported) :
    c ∈ k.calls ++ k.reported ∨ c ∈ k.callService.reportedBy e := by
  rw [callServiceTurn_reported hk h, ← List.append_assoc] at hc
  exact (List.mem_append.mp hc).imp_left ((sublist_of_callServiceTurn hk h).subset ·)

theorem Sound.callServiceTurn (hk : k.Sound) (h : k.callServiceTurn e = some k') : k'.Sound := by
  have hnext := (callServiceTurn_eq hk.wellFormed h).1
  have hcases (c : CallRef) (hc : c ∈ k.callService.reportedBy e) :=
    State.reportedBy_cases hk.wellFormed hnext hc
  have hturn := State.core_next hk.wellFormed hnext
  have hsublist := sublist_of_callServiceTurn hk.wellFormed h
  refine ⟨hturn.wellFormed hk.wellFormed, ?_, fun c hc => ?_⟩
  · rw [callServiceTurn_reported hk.wellFormed h, ← List.append_assoc]
    refine (hk.nodup.sublist hsublist).append ?_ ?_
    · cases hlist : k.callService.reportedBy e with
      | nil => exact List.nodup_nil
      | cons c rest =>
        have hone := (hcases c (by simp [hlist])).1
        rw [← hlist, hone]
        exact List.nodup_singleton c
    · intro c hc hnew
      exact hk.not_mem_of_reported hnext hnew (hsublist.subset hc)
  · rcases mem_of_callServiceTurn hk.wellFormed h hc with hold | hnew
    · obtain ⟨hlt, hstate⟩ := hk.known c hold
      refine ⟨Nat.lt_of_lt_of_le hlt hturn.next_le, ?_⟩
      rcases hturn.changesState hlt with hsame | ⟨hne, -⟩
      · exact fun hanswering => hstate (hsame.symm.trans hanswering)
      · exact hne
    · obtain ⟨-, hcall, -, hringing⟩ := hcases c hnew
      refine ⟨Nat.lt_of_lt_of_le (hk.wellFormed.allocated c hcall) hturn.next_le, ?_⟩
      rw [hringing]
      simp

/-! ### The lists along a run -/

theorem Sound.callService_eq (hk : k.Sound) (h : k.callServiceTurn e = some k') :
    k.callService.next e = some k'.callService :=
  (callServiceTurn_eq hk.wellFormed h).1

theorem Sound.sublist (h : k.Sound) {calls reported : List CallRef}
    (hcalls : List.Sublist calls k.calls) (hreported : List.Sublist reported k.reported) :
    Sound { k with calls, reported } where
  wellFormed := h.wellFormed
  nodup := h.nodup.sublist (hcalls.append hreported)
  known c hc := h.known c ((hcalls.append hreported).subset hc)

theorem Sound.addCall (h : k.Sound) (hc : c ∉ k.calls ++ k.reported)
    (hknown : c < k.callService.calls.next ∧ (k.callService.calls.get c).state ≠ .answering) :
    (k.addCall c).Sound := by
  have hperm : List.Perm ((k.addCall c).calls ++ k.reported) (c :: (k.calls ++ k.reported)) := by
    simp only [CallKitCallUIAdaptee.addCall, List.append_assoc, List.singleton_append]
    exact List.perm_middle
  refine ⟨h.wellFormed, hperm.nodup_iff.mpr (List.nodup_cons.mpr ⟨hc, h.nodup⟩), ?_⟩
  intro d hd
  rcases List.mem_cons.mp (hperm.mem_iff.mp hd) with rfl | hd
  · exact hknown
  · exact h.known d hd

theorem Sound.startAndShowOutgoingCall (hk : k.Sound) {recipientId : String} {signalingId : UInt64}
    (h : k.startAndShowOutgoingCall recipientId signalingId = some k') : k'.Sound := by
  unfold CallKitCallUIAdaptee.startAndShowOutgoingCall at h
  split_ifs at h
  · exact Option.some.inj h ▸ hk
  · obtain ⟨k₁, hturn, rfl⟩ := Option.map_eq_some_iff.mp h
    have hcreated : k₁.callService = k.callService.newOutgoingCall recipientId signalingId :=
      (Option.some.inj (hk.callService_eq hturn)).symm
    refine (hk.callServiceTurn hturn).addCall ?_ ?_
    · intro hmem
      rcases mem_of_callServiceTurn hk.wellFormed hturn hmem with hold | hnew
      · exact Nat.lt_irrefl _ (hk.known _ hold).1
      · cases hnew
    · rw [hcreated]
      simp [State.newOutgoingCall, SignalCall.outgoingCall]

theorem Sound.reportedNewIncomingCall (hk : k.Sound) {error : Option NSError}
    (h : k.reportedNewIncomingCall c error = some k') : k'.Sound := by
  unfold CallKitCallUIAdaptee.reportedNewIncomingCall at h
  split_ifs at h with hc
  obtain rfl := Option.some.inj h
  have herased := hk.sublist (List.Sublist.refl k.calls) (List.erase_sublist (a := c))
  cases error with
  | some error => exact herased
  | none =>
    refine herased.addCall ?_ (hk.known c (List.mem_append_right _ hc))
    obtain ⟨-, hreported, hdisjoint⟩ := List.nodup_append'.mp hk.nodup
    intro hmem
    rcases List.mem_append.mp hmem with hlisted | herased
    · exact hdisjoint hlisted hc
    · exact hreported.not_mem_erase herased

theorem Sound.perform (hk : k.Sound) {action : CXCallAction} (h : k.perform action = some k') :
    k'.Sound := by
  cases action with
  | startCall call | answerCall call | setMutedCall call isMuted =>
    simp only [CallKitCallUIAdaptee.perform] at h
    split_ifs at h
    · exact hk.callServiceTurn h
    · exact Option.some.inj h ▸ hk
  | endCall call =>
    simp only [CallKitCallUIAdaptee.perform] at h
    split_ifs at h
    · obtain ⟨k₁, hturn, rfl⟩ := Option.map_eq_some_iff.mp h
      exact (hk.callServiceTurn hturn).sublist (List.erase_sublist) (List.Sublist.refl _)
    · exact Option.some.inj h ▸ hk
  | setHeldCall call isOnHold =>
    simp only [CallKitCallUIAdaptee.perform] at h
    split_ifs at h
    all_goals
      obtain rfl := Option.some.inj h
      exact { hk with }

theorem Sound.step (hk : k.Sound) {event : CallKitEvent} (h : k.step event = some k') :
    k'.Sound := by
  cases event with
  | startAndShowOutgoingCall recipientId signalingId => exact hk.startAndShowOutgoingCall h
  | perform action => exact hk.perform h
  | reportedNewIncomingCall call error => exact hk.reportedNewIncomingCall h
  | providerDidReset =>
    have h : k.providerDidReset = some k' := h
    obtain ⟨k₁, hturn, rfl⟩ := Option.map_eq_some_iff.mp h
    have hstopped : k.stopAudioSession.Sound := { hk with }
    exact (hstopped.callServiceTurn hturn).sublist (List.nil_sublist _) (List.Sublist.refl _)
  | didActivate =>
    obtain rfl := Option.some.inj h
    exact { hk with }
  | createCallUIAdapter =>
    have h : k.createCallUIAdapter = some k' := h
    obtain ⟨k₁, hturn, rfl⟩ := Option.map_eq_some_iff.mp h
    exact (hk.callServiceTurn hturn).sublist (List.nil_sublist _) (List.nil_sublist _)
  | turn event =>
    simp only [CallKitCallUIAdaptee.step] at h
    split_ifs at h
    exact hk.callServiceTurn h

end CallKitCallUIAdaptee

theorem sound_of_run {tr : History CallKitCallUIAdaptee CallKitEvent} (h : callKitMachine.Run tr) :
    (callKitMachine.last tr).Sound :=
  h.state_invariant (I := CallKitCallUIAdaptee.Sound) CallKitCallUIAdaptee.sound_initial
    fun _ _ _ hk hstep => hk.step hstep

/-! ### The law -/

/-- The call that an end, answer, hold or mute action names. -/
def CallKitEvent.target : CallKitEvent → Option CallRef
  | .perform (.answerCall call) | .perform (.endCall call) | .perform (.setHeldCall call _)
  | .perform (.setMutedCall call _) => some call
  | _ => none

namespace CallKitCallUIAdaptee

def ListsNoEndedCall (k : CallKitCallUIAdaptee) : Prop :=
  ∀ c ∈ k.calls, (k.callService.calls.get c).state.isTerminal = false

/-- An action that names another call than the current one changes nothing of the call service,
nor whether the current call is on hold. -/
def LeavesCurrentAlone (k : CallKitCallUIAdaptee) (event : CallKitEvent)
    (k' : CallKitCallUIAdaptee) : Prop :=
  ∀ c current, event.target = some c → k.callService.call = some current → c ≠ current →
    k'.callService = k.callService ∧ k'.isOnHold current = k.isOnHold current

/-- The other side ends the current call: by a hang-up message of its contact, by any busy
message, or on the data channel. -/
def RemoteEnds (s : State) (call : CallRef) (e : Event) : Prop :=
  (∃ id, e = .received (.hangup id) (s.calls.get call).remotePhoneNumber) ∨
    (∃ id callerId, e = .received (.busy id) callerId) ∨
    ∃ client message, s.peerConnectionClient = some client ∧
      e = .client client (.received message) ∧ message.connected = none ∧
      message.hangup = some (s.calls.get call).signalingId

/-- Muting the current call, or unmuting it, would change nothing. -/
def IsMutedSo (s : State) (call : CallRef) (isMuted : Bool) : Prop :=
  ∃ client, s.peerConnectionClient = some client ∧ (s.calls.get call).isMuted = isMuted ∧
    (s.clients.get client).audioEnabled = some !isMuted

/-- What keeps the books in order. A listed call is started while no call is current and no
client is left over, and not ended by the other side; an end or mute action for a listed call
names the current call, if there is one; and a call that CallKit has allowed has not ended in the
meantime. -/
def Orderly (k : CallKitCallUIAdaptee) : CallKitEvent → Prop
  | .perform (.startCall call) => call ∈ k.calls →
      k.callService.call = none ∧ k.callService.peerConnectionClient = none
  | .perform (.endCall call) => call ∈ k.calls →
      ∀ current, k.callService.call = some current → call = current
  | .perform (.setMutedCall call isMuted) => call ∈ k.calls →
      ∀ current, k.callService.call = some current → call ≠ current →
        IsMutedSo k.callService current isMuted
  | .reportedNewIncomingCall call error => error = none →
      (k.callService.calls.get call).state.isTerminal = false
  | .turn event => ∀ current ∈ k.calls, k.callService.call = some current →
      ¬ RemoteEnds k.callService current event
  | _ => True

end CallKitCallUIAdaptee

/-- No ended call is listed, and the last action has left the current call alone if it named
another one. -/
def InOrder : History CallKitCallUIAdaptee CallKitEvent → Prop
  | [] => CallKitCallUIAdaptee.initial.ListsNoEndedCall
  | (event, k) :: tr =>
    k.ListsNoEndedCall ∧ (callKitMachine.last tr).LeavesCurrentAlone event k

namespace CallKitCallUIAdaptee
variable {k k' : CallKitCallUIAdaptee} {e : Event} {c : CallRef}

/-- A listed call that ends in a turn, and stays listed, is declined by the user, ended by the
other side, or refused. -/
theorem Sound.listed_cases (hk : k.Sound) (h : k.callServiceTurn e = some k') (hc : c ∈ k'.calls)
    (hlists : k.ListsNoEndedCall) (hterminal : (k'.callService.calls.get c).state.isTerminal = true) :
    k.callService.call = some c ∧ (k.callService.core.input e = .userDeclines ∨
        k.callService.core.input e = .remoteHangup ∨ k.callService.core.input e = .remoteBusy) ∨
      e = .user (.handleOutgoingCall c) ∧
        (k.callService.call ≠ none ∨ k.callService.peerConnectionClient ≠ none) := by
  have hcalls := callServiceTurn_calls hk.wellFormed h
  rw [hcalls] at hc
  have hbefore := List.diff_subset _ _ hc
  have hlt := (hk.known c (List.mem_append_left _ hbefore)).1
  have hturn := State.core_next hk.wellFormed (hk.callService_eq h)
  rcases hturn.changesState hlt with hsame | ⟨-, hends⟩
  · have hstate : (k'.callService.calls.get c).state = (k.callService.calls.get c).state := hsame
    rw [hstate, hlists c hbefore] at hterminal
    cases hterminal
  · rcases hends hterminal with ⟨hcall, hfails | hother⟩ | hrefused
    · have hfailed : k.callService.failedBy e = [c] := by
        have hcall : k.callService.call = some c := hcall
        rw [State.failedBy_of_fails hfails, hcall]
        rfl
      rw [hfailed] at hc
      have hnodup : k.calls.Nodup := (List.nodup_append'.mp hk.nodup).1
      rw [List.diff_cons, List.diff_nil] at hc
      exact absurd hc hnodup.not_mem_erase
    · exact .inl ⟨hcall, hother⟩
    · exact .inr hrefused

end CallKitCallUIAdaptee

namespace Session
variable {S S' : Session} {e : Event} {i : Input} {c : CallRef}

theorem Turn.isTerminal_of_remote (ht : S.Turn e i S') (hcall : S.call = some c)
    (hi : i = .remoteHangup ∨ i = .remoteBusy) : (S'.calls.get c).state.isTerminal = true := by
  have hfinish {T : Session} {d : CallRef} {f : SignalCall → SignalCall} (hd : S.call = some d)
      (hf : ∀ a, (f a).state.isTerminal = true) :
      ((T.finish d f).calls.get c).state.isTerminal = true := by
    obtain rfl := Option.some.inj (hcall.symm.trans hd)
    rw [finish_calls, Heap.get_modify_self]
    exact hf _
  cases ht with
  | ended h =>
    cases h with
    | remoteHangup e hd | missed e hd | remoteBusy e hd => exact hfinish hd fun _ => rfl
    | failed e i error hd hfails => exact hfinish hd fun _ => rfl
    | _ => simp at hi
  | _ => simp at hi

theorem currentInput_remote :
    S.currentInput c e = .remoteHangup ∨ S.currentInput c e = .remoteBusy ↔
      (∃ id, e = .received (.hangup id) (S.calls.get c).remotePhoneNumber) ∨
        (∃ id callerId, e = .received (.busy id) callerId) ∨
        ∃ client message, S.client = some client ∧ e = .client client (.received message) ∧
          message.connected = none ∧ message.hangup = some (S.calls.get c).signalingId := by
  cases e with
  | received message callerId =>
    cases message with
    | answer id sdp =>
      simp only [currentInput, messageInput]
      split_ifs <;> simp
    | iceUpdate id sdp line mid =>
      simp only [currentInput, messageInput]
      split_ifs <;> simp
    | hangup id =>
      simp only [currentInput, messageInput]
      split_ifs with hcaller <;> simp [hcaller]
    | busy id => simp [currentInput, messageInput]
  | client client event =>
    simp only [currentInput]
    split_ifs with hclient
    · cases event with
      | received message =>
        simp only [clientInput]
        cases hconnected : message.connected with
        | some id =>
          simp only
          split_ifs <;> simp [hconnected]
        | none =>
          cases hhangup : message.hangup with
          | some id =>
            simp only
            split_ifs with hid <;> simp [hclient, hconnected, hhangup, hid]
          | none => simp [hconnected, hhangup]
      | _ => simp [clientInput]
    · simp [hclient]
  | user action =>
    have hmem := userInput_mem (S := S) c action
    simp only [currentInput]
    constructor
    · rintro (h | h) <;> simp [h] at hmem
    · simp
  | continuation d k =>
    have hmem := continuationInput_mem (S := S) c d k
    simp only [currentInput]
    constructor
    · rintro (h | h) <;> simp [h] at hmem
    · simp
  | _ => simp [currentInput]

end Session
namespace State
variable {s s' : State} {e : Event} {c : CallRef}

theorem input_remote (hcall : s.call = some c) :
    s.core.input e = .remoteHangup ∨ s.core.input e = .remoteBusy ↔
      CallKitCallUIAdaptee.RemoteEnds s c e := by
  rw [input_of_some hcall]
  exact Session.currentInput_remote

/-- A refused call fails at once. -/
theorem state_handleOutgoingCall (hs : s.core.WellFormed) (hc : c ∈ s.unplaced)
    (h : s.call ≠ none ∨ s.peerConnectionClient ≠ none) :
    ((({ s with unplaced := s.unplaced.erase c }.handleOutgoingCall c).calls).get c).state =
      .localFailure := by
  cases hcall : s.call with
  | none =>
    obtain ⟨client, hclient⟩ := Option.ne_none_iff_exists'.mp (h.resolve_left (not_not.mpr hcall))
    have hcore := core_handleOutgoingCall hs hc hcall
    have hcalls := congrArg Session.calls hcore
    rw [hclient, core_calls] at hcalls
    rw [hcalls]
    simp
  | some d =>
    obtain ⟨-, -, number, id, hget⟩ := hs.unplaced c hc
    rw [core_calls] at hget
    simp only [handleOutgoingCall, hcall]
    rw [setCallState_of_unobserved (by simp [hget, SignalCall.outgoingCall])
      (by simp [hget, SignalCall.outgoingCall])]
    simp

/-- Muting changes nothing exactly if the call and its audio are muted so already. -/
theorem setIsMuted_eq_self_iff (hs : s.core.WellFormed) (hcall : s.call = some c)
    (isMuted : Bool) :
    s.setIsMuted isMuted = s ↔ CallKitCallUIAdaptee.IsMutedSo s c isMuted := by
  unfold CallKitCallUIAdaptee.IsMutedSo
  cases hclient : s.peerConnectionClient with
  | none =>
    refine iff_of_false (fun heq => ?_) (by simp)
    have hnone : (s.setIsMuted isMuted).call = none := by
      simp only [setIsMuted, hclient]
      exact congrArg Session.call (core_handleFailedCall hs hcall rfl)
    rw [heq] at hnone
    cases hcall.symm.trans hnone
  | some client =>
    have heq : s.setIsMuted isMuted =
        (s.setCallIsMuted c isMuted).setAudioEnabled client !isMuted := by
      simp [setIsMuted, hclient, hcall]
    rw [heq]
    constructor
    · intro hsame
      refine ⟨client, rfl, ?_, ?_⟩
      · have hcalls := congrArg (fun s : State => (s.calls.get c).isMuted) hsame
        simpa [setAudioEnabled, setCallIsMuted] using hcalls.symm
      · have hclients := congrArg (fun s : State => (s.clients.get client).audioEnabled) hsame
        simpa [setAudioEnabled, setCallIsMuted] using hclients.symm
    · rintro ⟨client', hclient', hmuted, haudio⟩
      obtain rfl := Option.some.inj hclient'
      have hcalls : (s.calls.modify c fun k => { k with isMuted }) = s.calls :=
        Heap.modify_eq_self (by rw [← hmuted])
      have hclients : (s.clients.modify client fun k => { k with audioEnabled := some !isMuted }) =
          s.clients := Heap.modify_eq_self (by rw [← haudio])
      simp only [setAudioEnabled, setCallIsMuted, hcalls, hclients]

end State

namespace CallKitCallUIAdaptee
variable {k k' : CallKitCallUIAdaptee} {e : Event} {c : CallRef} {event : CallKitEvent}

/-- A turn that is no hang-up, neither by the user nor by the other side, and places no call. -/
theorem Sound.lists_of_turn (hk : k.Sound) (hlists : k.ListsNoEndedCall)
    (h : k.callServiceTurn e = some k')
    (hinput : ∀ current, k.callService.core.currentInput current e ∉
      [Input.userDeclines, .remoteHangup, .remoteBusy])
    (hplace : ∀ c, e ≠ .user (.handleOutgoingCall c)) : k'.ListsNoEndedCall := by
  intro c hc
  by_contra hterminal
  rcases hk.listed_cases h hc hlists (by simpa using hterminal) with ⟨hcall, hi⟩ | ⟨he, -⟩
  · rw [State.input_of_some hcall] at hi
    exact hinput c (by simpa using hi)
  · exact hplace c he

theorem leavesCurrentAlone_of_target (h : event.target = none) : k.LeavesCurrentAlone event k' := by
  intro c current hc
  cases h.symm.trans hc

theorem Sound.isOnHold_eq (hk : k.Sound) (h : k.callServiceTurn e = some k') :
    k'.isOnHold = k.isOnHold := by
  rw [(callServiceTurn_eq hk.wellFormed h).2]

theorem Sound.orderly_startCall (hk : k.Sound) (hlists : k.ListsNoEndedCall)
    (h : k.perform (.startCall c) = some k') :
    k'.ListsNoEndedCall ↔ k.Orderly (.perform (.startCall c)) := by
  simp only [CallKitCallUIAdaptee.perform] at h
  split_ifs at h with hc
  · have hnext := hk.callService_eq h
    have hplaced : c ∈ k.callService.unplaced ∧ k'.callService =
        { k.callService with unplaced := k.callService.unplaced.erase c }.handleOutgoingCall c := by
      simp only [State.next, State.turn, State.userAction] at hnext
      split_ifs at hnext with hunplaced
      · exact ⟨hunplaced, (Option.some.inj hnext).symm⟩
      · cases hnext
    have hother : k.callService.core.input (.user (.handleOutgoingCall c)) = .other := by
      cases hcall : k.callService.call with
      | none => simp [Session.input, hcall]
      | some d => exact State.input_of_some hcall _
    constructor
    · intro hlists' _
      by_contra hbusy
      have hstate := State.state_handleOutgoingCall hk.wellFormed hplaced.1 (by tauto)
      have hmem : c ∈ k'.calls := by
        rw [callServiceTurn_calls hk.wellFormed h,
          State.failedBy_of_input hother (by simp [Session.Fails])]
        simpa using hc
      have hnot := hlists' c hmem
      rw [hplaced.2, hstate] at hnot
      cases hnot
    · intro horderly d hd
      obtain ⟨hcall, hclient⟩ := horderly hc
      by_contra hterminal
      rcases hk.listed_cases h hd hlists (by simpa using hterminal) with ⟨hsome, -⟩ | ⟨-, hbusy⟩
      · cases hcall.symm.trans hsome
      · exact hbusy.elim (· hcall) (· hclient)
  · obtain rfl := Option.some.inj h
    exact iff_of_true hlists fun hmem => absurd hmem hc

theorem Sound.inOrder_answerCall (hk : k.Sound) (hlists : k.ListsNoEndedCall)
    (h : k.perform (.answerCall c) = some k') :
    k'.ListsNoEndedCall ∧ k.LeavesCurrentAlone (.perform (.answerCall c)) k' := by
  simp only [CallKitCallUIAdaptee.perform] at h
  split_ifs at h
  · refine ⟨hk.lists_of_turn hlists h (fun current => ?_) (by simp), ?_⟩
    · simp only [Session.currentInput, Session.userInput]
      split_ifs <;> simp
    · intro d current hd hcall hne
      obtain rfl := Option.some.inj hd
      have hignored : k.callService.handleAnswerCall c = k.callService := by
        simp [State.handleAnswerCall, hcall, hne]
      have hnext : k.callService.handleAnswerCall c = k'.callService :=
        Option.some.inj (hk.callService_eq h)
      exact ⟨hnext.symm.trans hignored, by rw [hk.isOnHold_eq h]⟩
  · obtain rfl := Option.some.inj h
    exact ⟨hlists, fun _ _ _ _ _ => ⟨rfl, rfl⟩⟩

/-- Ending a call takes it from the list, whatever the call service does with it. -/
theorem Sound.lists_endCall (hk : k.Sound) (hlists : k.ListsNoEndedCall)
    (h : k.perform (.endCall c) = some k') : k'.ListsNoEndedCall := by
  simp only [CallKitCallUIAdaptee.perform] at h
  split_ifs at h
  · obtain ⟨k₁, hturn, rfl⟩ := Option.map_eq_some_iff.mp h
    have hnodup : k₁.calls.Nodup := (List.nodup_append'.mp (hk.callServiceTurn hturn).nodup).1
    intro d hd
    have hmem : d ≠ c ∧ d ∈ k₁.calls := hnodup.mem_erase_iff.mp hd
    by_contra hterminal
    rcases hk.listed_cases hturn hmem.2 hlists (by simpa [removeCall] using hterminal) with
      ⟨hcall, hi⟩ | ⟨he, -⟩
    · rw [State.input_of_some hcall] at hi
      simp only [Session.currentInput, Session.userInput, if_neg hmem.1.symm] at hi
      simp at hi
    · cases he
  · exact Option.some.inj h ▸ hlists

theorem Sound.leavesCurrentAlone_endCall (hk : k.Sound) (h : k.perform (.endCall c) = some k') :
    k.LeavesCurrentAlone (.perform (.endCall c)) k' ↔ k.Orderly (.perform (.endCall c)) := by
  simp only [CallKitCallUIAdaptee.perform] at h
  split_ifs at h with hc
  · obtain ⟨k₁, hturn, rfl⟩ := Option.map_eq_some_iff.mp h
    constructor
    · intro halone _ current hcall
      by_contra hne
      have hsame : k₁.callService = k.callService := (halone c current rfl hcall hne).1
      have hinput : k.callService.core.input (.user (.handleLocalHungupCall c)) = .failure := by
        rw [State.input_of_some hcall]
        exact if_neg hne
      have hended := (State.core_next hk.wellFormed (hk.callService_eq hturn)).call_eq_none
        (by simp [hinput])
      have hnone : k₁.callService.call = none := hended
      rw [hsame, hcall] at hnone
      cases hnone
    · intro horderly d current hd hcall hne
      obtain rfl := Option.some.inj hd
      exact absurd (horderly hc current hcall) hne
  · obtain rfl := Option.some.inj h
    exact iff_of_true (fun _ _ _ _ _ => ⟨rfl, rfl⟩) fun hmem => absurd hmem hc

theorem inOrder_setHeldCall (hlists : k.ListsNoEndedCall) {isOnHold : Bool}
    (h : k.perform (.setHeldCall c isOnHold) = some k') :
    k'.ListsNoEndedCall ∧ k.LeavesCurrentAlone (.perform (.setHeldCall c isOnHold)) k' := by
  simp only [CallKitCallUIAdaptee.perform] at h
  split_ifs at h
  · obtain rfl := Option.some.inj h
    refine ⟨hlists, fun d current hd _ hne => ⟨rfl, ?_⟩⟩
    obtain rfl := Option.some.inj hd
    exact if_neg hne.symm
  · obtain rfl := Option.some.inj h
    refine ⟨hlists, fun d current hd _ hne => ⟨rfl, ?_⟩⟩
    obtain rfl := Option.some.inj hd
    exact if_neg hne.symm
  · obtain rfl := Option.some.inj h
    exact ⟨hlists, fun _ _ _ _ _ => ⟨rfl, rfl⟩⟩

theorem Sound.lists_setMutedCall (hk : k.Sound) (hlists : k.ListsNoEndedCall) {isMuted : Bool}
    (h : k.perform (.setMutedCall c isMuted) = some k') : k'.ListsNoEndedCall := by
  simp only [CallKitCallUIAdaptee.perform] at h
  split_ifs at h
  · refine hk.lists_of_turn hlists h (fun current => ?_) (by simp)
    simp only [Session.currentInput, Session.userInput]
    split_ifs <;> simp
  · exact Option.some.inj h ▸ hlists

theorem Sound.leavesCurrentAlone_setMutedCall (hk : k.Sound) {isMuted : Bool}
    (h : k.perform (.setMutedCall c isMuted) = some k') :
    k.LeavesCurrentAlone (.perform (.setMutedCall c isMuted)) k' ↔
      k.Orderly (.perform (.setMutedCall c isMuted)) := by
  simp only [CallKitCallUIAdaptee.perform] at h
  split_ifs at h with hc
  · have hnext : k.callService.setIsMuted isMuted = k'.callService :=
      Option.some.inj (hk.callService_eq h)
    constructor
    · intro halone _ current hcall hne
      rw [← State.setIsMuted_eq_self_iff hk.wellFormed hcall, hnext]
      exact (halone c current rfl hcall hne).1
    · intro horderly d current hd hcall hne
      obtain rfl := Option.some.inj hd
      have hmuted := horderly hc current hcall hne
      rw [← State.setIsMuted_eq_self_iff hk.wellFormed hcall, hnext] at hmuted
      exact ⟨hmuted, by rw [hk.isOnHold_eq h]⟩
  · obtain rfl := Option.some.inj h
    exact iff_of_true (fun _ _ _ _ _ => ⟨rfl, rfl⟩) fun hmem => absurd hmem hc

theorem Sound.lists_startAndShow (hk : k.Sound) (hlists : k.ListsNoEndedCall)
    {recipientId : String} {signalingId : UInt64}
    (h : k.startAndShowOutgoingCall recipientId signalingId = some k') : k'.ListsNoEndedCall := by
  unfold CallKitCallUIAdaptee.startAndShowOutgoingCall at h
  split_ifs at h
  · exact Option.some.inj h ▸ hlists
  · obtain ⟨k₁, hturn, rfl⟩ := Option.map_eq_some_iff.mp h
    have hcreated : k₁.callService = k.callService.newOutgoingCall recipientId signalingId :=
      (Option.some.inj (hk.callService_eq hturn)).symm
    intro c hc
    rcases List.mem_append.mp hc with hold | hnew
    · refine hk.lists_of_turn hlists hturn (fun current => ?_) (by simp) c hold
      simp [Session.currentInput, Session.userInput]
    · obtain rfl := List.mem_singleton.mp hnew
      have hstate : (k₁.callService.calls.get k.callService.calls.next).state = .dialing := by
        rw [hcreated]
        simp [State.newOutgoingCall, SignalCall.outgoingCall]
      have hadded : (k₁.addCall k.callService.calls.next).callService = k₁.callService := rfl
      rw [hadded, hstate]
      rfl

theorem orderly_reportedNewIncomingCall (hlists : k.ListsNoEndedCall) {error : Option NSError}
    (h : k.reportedNewIncomingCall c error = some k') :
    k'.ListsNoEndedCall ↔ k.Orderly (.reportedNewIncomingCall c error) := by
  unfold CallKitCallUIAdaptee.reportedNewIncomingCall at h
  split_ifs at h
  obtain rfl := Option.some.inj h
  cases error with
  | some error => exact iff_of_true hlists (by simp [Orderly])
  | none =>
    constructor
    · intro hlists' _
      exact hlists' c (List.mem_append_right _ (List.mem_singleton_self c))
    · intro horderly d hd
      rcases List.mem_append.mp hd with hold | hnew
      · exact hlists d hold
      · obtain rfl := List.mem_singleton.mp hnew
        exact horderly rfl

theorem Sound.orderly_turn (hk : k.Sound) (hlists : k.ListsNoEndedCall)
    (he : e.isThroughCallKit = false) (h : k.callServiceTurn e = some k') :
    k'.ListsNoEndedCall ↔ k.Orderly (.turn e) := by
  constructor
  · intro hlists' current hcurrent hcall hends
    have hremote := (State.input_remote hcall).mpr hends
    have hsilent : k.callService.failedBy e = [] := by
      rcases hremote with hi | hi
      · exact State.failedBy_of_input hi (by simp [Session.Fails])
      · exact State.failedBy_of_input hi (by simp [Session.Fails])
    have hmem : current ∈ k'.calls := by
      rw [callServiceTurn_calls hk.wellFormed h, hsilent]
      simpa using hcurrent
    have hturn := State.core_next hk.wellFormed (hk.callService_eq h)
    have hterminal := hturn.isTerminal_of_remote hcall hremote
    have hstate : (k'.callService.core.calls.get current).state.isTerminal = false :=
      hlists' current hmem
    rw [hterminal] at hstate
    cases hstate
  · intro horderly c hc
    by_contra hterminal
    have hlisted : c ∈ k.calls := by
      rw [callServiceTurn_calls hk.wellFormed h] at hc
      exact List.diff_subset _ _ hc
    rcases hk.listed_cases h hc hlists (by simpa using hterminal) with
      ⟨hcall, hdeclines | hremote⟩ | ⟨hplaces, -⟩
    · rw [State.input_of_some hcall, Session.currentInput_userDeclines] at hdeclines
      rcases hdeclines with rfl | rfl | rfl <;> cases he
    · exact horderly c hlisted hcall ((State.input_remote hcall).mp hremote)
    · subst hplaces
      cases he

/-- A step from a state that lists no ended call keeps the books in order if it is orderly, and
only then. -/
theorem Sound.inOrder_iff (hk : k.Sound) (hlists : k.ListsNoEndedCall)
    (h : k.step event = some k') :
    k'.ListsNoEndedCall ∧ k.LeavesCurrentAlone event k' ↔ k.Orderly event := by
  have hnoTarget (htarget : event.target = none) :
      k'.ListsNoEndedCall ∧ k.LeavesCurrentAlone event k' ↔ k'.ListsNoEndedCall :=
    and_iff_left (leavesCurrentAlone_of_target htarget)
  cases event with
  | startAndShowOutgoingCall recipientId signalingId =>
    rw [hnoTarget rfl]
    exact iff_of_true (hk.lists_startAndShow hlists h) trivial
  | perform action =>
    cases action with
    | startCall call =>
      rw [hnoTarget rfl]
      exact hk.orderly_startCall hlists h
    | answerCall call => exact iff_of_true (hk.inOrder_answerCall hlists h) trivial
    | endCall call =>
      rw [and_iff_right (hk.lists_endCall hlists h)]
      exact hk.leavesCurrentAlone_endCall h
    | setHeldCall call isOnHold => exact iff_of_true (inOrder_setHeldCall hlists h) trivial
    | setMutedCall call isMuted =>
      rw [and_iff_right (hk.lists_setMutedCall hlists h)]
      exact hk.leavesCurrentAlone_setMutedCall h
  | reportedNewIncomingCall call error =>
    rw [hnoTarget rfl]
    exact orderly_reportedNewIncomingCall hlists h
  | providerDidReset =>
    rw [hnoTarget rfl]
    have h : k.providerDidReset = some k' := h
    obtain ⟨k₁, -, rfl⟩ := Option.map_eq_some_iff.mp h
    exact iff_of_true (fun c hc => nomatch hc) trivial
  | didActivate =>
    rw [hnoTarget rfl]
    obtain rfl := Option.some.inj h
    exact iff_of_true hlists trivial
  | createCallUIAdapter =>
    rw [hnoTarget rfl]
    have h : k.createCallUIAdapter = some k' := h
    obtain ⟨k₁, -, rfl⟩ := Option.map_eq_some_iff.mp h
    exact iff_of_true (fun c hc => nomatch hc) trivial
  | turn e =>
    rw [hnoTarget rfl]
    simp only [CallKitCallUIAdaptee.step] at h
    split_ifs at h with he
    exact hk.orderly_turn hlists (by simpa using he) h

end CallKitCallUIAdaptee

theorem InOrder.lists {tr : History CallKitCallUIAdaptee CallKitEvent} (h : InOrder tr) :
    (callKitMachine.last tr).ListsNoEndedCall := by
  cases tr with
  | nil => exact h
  | cons p tr => exact h.1

/-- Along a run the books are in order exactly as long as its events are orderly. -/
theorem inOrder_iff_orderly {tr : History CallKitCallUIAdaptee CallKitEvent}
    (h : callKitMachine.Run tr) :
    Machine.Always InOrder tr ↔
      Machine.Guarded (fun tr event => (callKitMachine.last tr).Orderly event) tr := by
  apply h.always_iff_guarded
  · intro c hc
    cases hc
  · intro tr event k hrun hP hstep
    exact (sound_of_run hrun).inOrder_iff hP.lists hstep

/-- The other side is busy, and a call of somebody else comes in. -/
def busyThenIncoming : List CallKitEvent :=
  [.startAndShowOutgoingCall "+15550001" 7, .perform (.startCall 0),
    .turn (.received (.busy 7) "+15550001"), .turn (.receivedOffer 8 "offer" "+15550002" false)]

/-- The busy call stays listed, and ending it from the CallKit screen fails the next call. -/
theorem inOrder_counterexample :
    ∃ tr k', callKitMachine.exec busyThenIncoming = some tr ∧ callKitMachine.Run tr ∧
      (callKitMachine.last tr).calls = [0] ∧
      ((callKitMachine.last tr).callService.calls.get 0).state = .remoteBusy ∧
      ¬ InOrder tr ∧
      (callKitMachine.last tr).callService.call = some 1 ∧
      callKitMachine.step (callKitMachine.last tr) (.perform (.endCall 0)) = some k' ∧
      (k'.callService.calls.get 1).state = .localFailure ∧
      ¬ (callKitMachine.last tr).LeavesCurrentAlone (.perform (.endCall 0)) k' := by
  have hexec : (callKitMachine.exec busyThenIncoming).map (fun tr =>
      let k := callKitMachine.last tr
      (k.calls, (k.callService.calls.get 0).state, k.callService.call,
        (callKitMachine.step k (.perform (.endCall 0))).map fun k' =>
          ((k'.callService.calls.get 1).state, k'.callService.call))) =
      some ([0], .remoteBusy, some 1, some (.localFailure, none)) := by rfl
  obtain ⟨tr, htr, hget⟩ := Option.map_eq_some_iff.mp hexec
  simp only [Prod.mk.injEq] at hget
  obtain ⟨hcalls, hstate, hcall, hstep⟩ := hget
  obtain ⟨k', hk', hget'⟩ := Option.map_eq_some_iff.mp hstep
  obtain ⟨hfailed, hnone⟩ := Prod.mk.inj hget'
  refine ⟨tr, k', htr, Machine.run_of_exec htr, hcalls, hstate, ?_, hcall, hk', hfailed, ?_⟩
  · intro horder
    have hlisted := horder.lists 0 (by simp [hcalls])
    rw [hstate] at hlisted
    cases hlisted
  · intro halone
    have hsame := (halone 0 1 rfl hcall (by simp)).1
    rw [hsame, hcall] at hnone
    cases hnone

/-- An outgoing call that the user hangs up is taken from the list. -/
theorem inOrder_iff_orderly_of_hungUp :
    ∃ tr, callKitMachine.exec [.startAndShowOutgoingCall "+15550001" 7, .perform (.startCall 0),
        .perform (.endCall 0)] = some tr ∧
      (Machine.Always InOrder tr ↔
        Machine.Guarded (fun tr event => (callKitMachine.last tr).Orderly event) tr) := by
  have hexec : (callKitMachine.exec [.startAndShowOutgoingCall "+15550001" 7,
      .perform (.startCall 0), .perform (.endCall 0)]).isSome := by rfl
  obtain ⟨tr, htr⟩ := Option.isSome_iff_exists.mp hexec
  exact ⟨tr, htr, inOrder_iff_orderly (Machine.run_of_exec htr)⟩

end SignalIOS.Call
