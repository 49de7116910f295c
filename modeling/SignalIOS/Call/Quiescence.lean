import SignalIOS.Call.Occurrences

/-! What is left of a call between two turns. -/
namespace SignalIOS.Call
open SignalIOS.Lib

namespace Session
variable {S S' : Session} {e : Event} {i : Input}

/-- Without a current call nothing of a call is left, and a current call has not ended. -/
def Quiescent (S : Session) : Prop :=
  (S.call = none → S.client = none ∧ S.thread = none ∧ S.pending = [] ∧ S.immediate = true) ∧
    ∀ c, S.call = some c → (S.calls.get c).state.isTerminal = false

theorem Quiescent.of_call {c : CallRef} (hcall : S.call = some c)
    (hstate : (S.calls.get c).state.isTerminal = false) : S.Quiescent :=
  ⟨fun hnone => (nomatch hcall.symm.trans hnone), fun _ hd =>
    Option.some.inj (hcall.symm.trans hd) ▸ hstate⟩

theorem SameCurrent.quiescent (hsame : S.SameCurrent S') (h : S.Quiescent) : S'.Quiescent := by
  refine ⟨fun hcall => ?_, fun c hcall => ?_⟩
  · rw [hsame.client, hsame.thread, hsame.pending, hsame.immediate]
    exact h.1 (hsame.call.symm.trans hcall)
  · rw [hsame.call] at hcall
    rw [hsame.calls c hcall]
    exact h.2 c hcall

/-- The ICE servers of an outgoing call arrive while some call is current. -/
def MakesClientInCall (S : Session) (e : Event) : Prop :=
  ∀ c result, e = .continuation c (.iceServers result) → S.setUp c = .iceServers none →
    S.call ≠ none

theorem Turn.quiescent (ht : S.Turn e i S') (hS : S.WellFormed) (h : S.Quiescent)
    (hmakes : S.MakesClientInCall e) : S'.Quiescent := by
  have hcurrent {c : CallRef} (hcall : S.call = some c) :
      (S.calls.get c).state.isTerminal = false := h.2 c hcall
  cases ht with
  | idle => exact h
  | aside ht => exact (ht.sameCurrent hS).quiescent h
  | ended ht =>
    have hquiet := ht.quiet
    exact ⟨fun _ => ⟨hquiet.client, hquiet.thread, hquiet.pending, hquiet.immediate⟩,
      fun c hc => nomatch hquiet.call.symm.trans hc⟩
  | placed => exact .of_call rfl (by simp [CallState.isTerminal])
  | placedStale hc hcall hclient => exact nomatch hclient.symm.trans (h.1 hcall).1
  | offered => exact .of_call rfl (by simp [SignalCall.incomingCall, CallState.isTerminal])
  | madeOutgoing result hc => exact ⟨fun hnone => absurd hnone (hmakes _ _ rfl hc), h.2⟩
  | madeIncoming result hc hcall => exact .of_call hcall (hcurrent hcall)
  | rang e hcall hstate =>
    refine .of_call hcall ?_
    rcases hstate with ⟨-, rfl⟩ | ⟨-, rfl⟩ <;> simp [CallState.isTerminal]
  | connected e hcall => exact .of_call hcall (by simp [CallState.isTerminal])
  | answered e hcall => exact .of_call hcall (by simp [CallState.isTerminal])
  | muted isMuted hcall => exact .of_call hcall (by simpa using hcurrent hcall)
  | videoSet e hasLocalVideo hcall => exact .of_call hcall (by simpa using hcurrent hcall)
  | application => exact h
  | answerReceived e hcall => exact .of_call hcall (hcurrent hcall)
  | buffered e message hcall => exact .of_call hcall (hcurrent hcall)
  | sent e message hcall => exact .of_call hcall (hcurrent hcall)

end Session

theorem quiescent_iff {tr : Trace} (h : callMachine.Run tr) :
    Machine.Always (fun tr => (callMachine.last tr).core.Quiescent) tr ↔
      Machine.Guarded (fun tr e => (callMachine.last tr).core.MakesClientInCall e) tr := by
  refine h.always_iff_guarded ⟨fun _ => ⟨rfl, rfl, rfl, rfl⟩, fun c hc => nomatch hc⟩
    fun tr e s hrun hP hstep => ?_
  refine ⟨fun hquiescent => ?_,
    (turn_of_run hrun hstep).quiescent (wellFormed_of_run hrun) hP⟩
  rintro c result rfl hsetUp hcall
  have hs := State.next_outgoingIceServers hsetUp hstep
  have hcall' : s.core.call = none := by
    rw [hs]
    exact hcall
  have hclient : s.core.client = some (callMachine.last tr).clients.next := by
    rw [hs]
    rfl
  exact nomatch hclient.symm.trans (hquiescent.1 hcall').1

/-- An outgoing call is hung up before it has its ICE servers. -/
def hungUpEarly : List Event :=
  [.user (.newOutgoingCall "+15550001" 7), .user (.handleOutgoingCall 0),
    .user (.handleLocalHungupCall 0),
    .continuation 0 (.iceServers (.ok ⟨"password", "username", []⟩))]

theorem quiescent_counterexample :
    ∃ tr, callMachine.exec hungUpEarly = some tr ∧ callMachine.Run tr ∧
      ¬ (callMachine.last tr).core.Quiescent := by
  have hexec : (callMachine.exec hungUpEarly).map (fun tr =>
      ((callMachine.last tr).call, (callMachine.last tr).peerConnectionClient)) =
      some (none, some 0) := by rfl
  obtain ⟨tr, htr, hget⟩ := Option.map_eq_some_iff.mp hexec
  simp only [Prod.mk.injEq] at hget
  exact ⟨tr, htr, Machine.run_of_exec htr, fun h => nomatch hget.2.symm.trans (h.1 hget.1).1⟩

theorem quiescent_iff_of_hungUpEarly :
    ∃ tr, callMachine.exec hungUpEarly = some tr ∧
      (Machine.Always (fun tr => (callMachine.last tr).core.Quiescent) tr ↔
        Machine.Guarded (fun tr e => (callMachine.last tr).core.MakesClientInCall e) tr) := by
  have hexec : (callMachine.exec hungUpEarly).isSome := by rfl
  obtain ⟨tr, htr⟩ := Option.isSome_iff_exists.mp hexec
  exact ⟨tr, htr, quiescent_iff (Machine.run_of_exec htr)⟩

end SignalIOS.Call
