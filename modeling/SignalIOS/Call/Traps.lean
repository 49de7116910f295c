import SignalIOS.Call.Quiescence

/-! When a turn of the main queue ends the process. -/
namespace SignalIOS.Call
open SignalIOS.Lib

/-- The call service, until a turn traps. After that there are no more turns. -/
def process : Machine (Except Fault State) Event where
  init := .ok .initial
  step
    | .ok s, e => s.turn e
    | .error _, _ => none

def Alive (s : Except Fault State) : Prop := ∃ s', s = .ok s'

/-- The line index has 31 bits, and the client that the set-up chain unwraps is there. -/
def Event.Safe (s : State) : Event → Prop
  | .received (.iceUpdate _ _ sdpMlineIndex _) _ => sdpMlineIndex.toNat ≤ 0x7FFFFFFF
  | .continuation call (.offer _) => s.setUp call = .offer → s.peerConnectionClient ≠ none
  | _ => True

theorem alive_ok (s : State) : Alive (.ok s) := ⟨s, rfl⟩

theorem not_alive_error (fault : Fault) : ¬ Alive (.error fault) := by
  rintro ⟨s, h⟩
  cases h

namespace State
variable {s : State} {e : Event} {r : Except Fault State}

theorem alive_receivedMessage (message : CallMessage) (callerId : String) :
    Alive (s.receivedMessage message callerId) ↔ (Event.received message callerId).Safe s := by
  cases message with
  | iceUpdate id sdp sdpMlineIndex sdpMid =>
    unfold receivedMessage int32FromUInt32 Event.Safe
    dsimp only
    split_ifs with hindex
    · exact iff_of_true (alive_ok _) hindex
    · exact iff_of_false (not_alive_error _) hindex
  | _ => exact iff_of_true (alive_ok _) trivial

/-- Only the second `then` of an outgoing chain can trap. -/
theorem alive_continuation {call : CallRef} {k : Continuation}
    (h : s.continuation call k = some r) : Alive r ↔ (Event.continuation call k).Safe s := by
  cases continues_of_continuation h with
  | offer sdp hsetUp hclient =>
    refine iff_of_true (alive_ok _) fun _ => ?_
    rw [hclient]
    exact Option.some_ne_none _
  | noClient sdp hsetUp hclient =>
    exact iff_of_false (not_alive_error _) fun hsafe => hsafe hsetUp hclient
  | _ => exact iff_of_true (alive_ok _) trivial

/-- A turn traps where its event is not safe, and nowhere else. -/
theorem alive_turn (h : s.turn e = some r) : Alive r ↔ e.Safe s := by
  cases e with
  | received message callerId =>
    obtain rfl := Option.some.inj h
    exact alive_receivedMessage message callerId
  | continuation call k => exact alive_continuation h
  | user action =>
    obtain ⟨s', -, rfl⟩ := Option.map_eq_some_iff.mp h
    exact iff_of_true (alive_ok s') trivial
  | _ =>
    obtain rfl := Option.some.inj h
    exact iff_of_true (alive_ok _) trivial

end State

/-- What `Event.Safe` says, along a run. -/
def SafeEvent (tr : History (Except Fault State) Event) (e : Event) : Prop :=
  ∀ s, process.last tr = .ok s → e.Safe s

variable {tr : History (Except Fault State) Event}

/-- No turn of a run traps exactly when every event of it is safe. -/
theorem neverTraps_iff (h : process.Run tr) :
    Machine.Always (fun tr => Alive (process.last tr)) tr ↔ Machine.Guarded SafeEvent tr := by
  apply h.always_iff_guarded (alive_ok _)
  rintro tr e r hrun ⟨s, hs⟩ hstep
  rw [hs] at hstep
  rw [Machine.last_cons, State.alive_turn hstep]
  constructor
  · intro hsafe s' hs'
    obtain rfl := Except.ok.inj (hs.symm.trans hs')
    exact hsafe
  · intro hsafe
    exact hsafe s hs

theorem SetUp.Advance.ne_offer {s t : SetUp} (h : s.Advance t) : t ≠ .offer := by
  cases h <;> simp

namespace Session
variable {S S' : Session} {e : Event} {i : Input}

/-- The current call has a client while its offer is created. -/
def OfferHasClient (S : Session) : Prop :=
  ∀ c, S.setUp c = .offer → S.call = some c → S.client ≠ none

theorem OfferHasClient.of_setUp (h : S.OfferHasClient) (hcall : S'.call = S.call)
    (hclient : S'.client = S.client) (hsetUp : ∀ c, S'.setUp c = .offer → S.setUp c = .offer) :
    S'.OfferHasClient := by
  intro c hc hcurrent
  rw [hclient]
  exact h c (hsetUp c hc) (hcall.symm.trans hcurrent)

theorem offer_of_stage {c d : CallRef} {stage : SetUp} (hstage : stage ≠ .offer)
    (h : (S.stage c stage).setUp d = .offer) : S.setUp d = .offer := by
  rw [stage_setUp] at h
  split_ifs at h
  · exact absurd h hstage
  · exact h

theorem Aside.offerHasClient (ht : S.Aside e S') (hS : S.WellFormed) (h : S.OfferHasClient) :
    S'.OfferHasClient := by
  have hsame := ht.sameCurrent hS
  apply h.of_setUp hsame.call hsame.client
  intro c hc
  cases ht with
  | created | refused | turnedAway => exact hc
  | advanced k hadvance => exact offer_of_stage hadvance.ne_offer hc
  | raced => exact offer_of_stage (by simp) hc

theorem Turn.offerHasClient (ht : S.Turn e i S') (hS : S.WellFormed) (h : S.OfferHasClient) :
    S'.OfferHasClient := by
  cases ht with
  | idle | rang | muted | videoSet | application | answerReceived | buffered | sent => exact h
  | aside ht => exact ht.offerHasClient hS h
  | placed | placedStale =>
    intro d hd hcurrent
    obtain rfl := Option.some.inj hcurrent
    simp at hd
  | offered =>
    intro d hd hcurrent
    obtain rfl := Option.some.inj hcurrent
    simp at hd
  | madeOutgoing | madeIncoming => exact fun _ _ _ => by simp
  | connected | answered =>
    refine OfferHasClient.of_setUp h rfl rfl ?_
    intro c hc
    simp only [connect_setUp, answer_setUp, fulfilled] at hc
    split_ifs at hc
    exact hc
  | ended ht =>
    intro c _ hcurrent
    cases ht.quiet.call.symm.trans hcurrent

end Session

/-- The states that the process reaches are those of the call service. -/
theorem run_of_process {s : State} (h : process.Run tr) (hs : process.last tr = .ok s) :
    ∃ tr', callMachine.Run tr' ∧ callMachine.last tr' = s := by
  induction tr generalizing s with
  | nil => exact ⟨[], trivial, Except.ok.inj hs⟩
  | cons p tr ih =>
    obtain ⟨e, r⟩ := p
    obtain rfl : r = .ok s := hs
    obtain ⟨hrun, hstep⟩ := h
    cases hlast : process.last tr with
    | error fault =>
      rw [hlast] at hstep
      cases hstep
    | ok before =>
      rw [hlast] at hstep
      obtain ⟨tr', hrun', hbefore⟩ := ih hrun hlast
      have hnext : callMachine.step (callMachine.last tr') e = some s := by
        have hturn : before.turn e = some (.ok s) := hstep
        change ((callMachine.last tr').turn e).bind Except.toOption = some s
        rw [hbefore, hturn]
        rfl
      exact ⟨(e, s) :: tr', ⟨hrun', hnext⟩, rfl⟩

/-- No forced unwrap of `nil` happens as long as the call is current. -/
theorem safe_of_current {s : State} {c : CallRef} (h : process.Run tr)
    (hs : process.last tr = .ok s) (hcall : s.call = some c) (sessionDescription : String) :
    (Event.continuation c (.offer sessionDescription)).Safe s := by
  intro hsetUp
  obtain ⟨tr', hrun, rfl⟩ := run_of_process h hs
  have hinvariant : ∀ tr, callMachine.Run tr → (callMachine.last tr).core.OfferHasClient := by
    intro tr hrun
    apply hrun.invariant (P := fun tr => (callMachine.last tr).core.OfferHasClient)
    · intro d hd
      cases hd
    · intro tr e s hrun hP hstep
      exact (turn_of_run hrun hstep).offerHasClient (wellFormed_of_run hrun) hP
  exact hinvariant tr' hrun c hsetUp hcall

/-- An ICE update with the line index `2 ^ 31`. -/
def largeLineIndex : List Event := [.received (.iceUpdate 7 "candidate" 0x80000000 "audio") "+1"]

/-- An outgoing call is hung up while its offer is created. -/
def hungUpOffering : List Event :=
  [.user (.newOutgoingCall "+15550001" 7), .user (.handleOutgoingCall 0),
    .continuation 0 (.iceServers (.ok ⟨"password", "username", []⟩)),
    .user (.handleLocalHungupCall 0), .continuation 0 (.offer "offer")]

def faultOf : Except Fault State → Option Fault
  | .ok _ => none
  | .error fault => some fault

theorem traps_of_exec {es : List Event} {fault : Fault}
    (h : (process.exec es).map (fun tr => faultOf (process.last tr)) = some (some fault)) :
    ∃ tr, process.exec es = some tr ∧ process.Run tr ∧ process.last tr = .error fault ∧
      ¬ Machine.Always (fun tr => Alive (process.last tr)) tr := by
  obtain ⟨tr, htr, hget⟩ := Option.map_eq_some_iff.mp h
  have hlast : process.last tr = .error fault := by
    cases hr : process.last tr with
    | ok s =>
      rw [hr] at hget
      cases hget
    | error fault' =>
      rw [hr] at hget
      obtain rfl := Option.some.inj hget
      rfl
  refine ⟨tr, htr, Machine.run_of_exec htr, hlast, ?_⟩
  intro halways
  exact not_alive_error fault (hlast ▸ halways.last)

theorem neverTraps_counterexample :
    (∃ tr, process.exec largeLineIndex = some tr ∧ process.Run tr ∧
      process.last tr = .error .integerOverflow ∧
        ¬ Machine.Always (fun tr => Alive (process.last tr)) tr) ∧
    ∃ tr, process.exec hungUpOffering = some tr ∧ process.Run tr ∧
      process.last tr = .error .unwrappedNil ∧
        ¬ Machine.Always (fun tr => Alive (process.last tr)) tr :=
  ⟨traps_of_exec (by rfl), traps_of_exec (by rfl)⟩

theorem neverTraps_iff_of_hungUpOffering :
    ∃ tr, process.exec hungUpOffering = some tr ∧
      (Machine.Always (fun tr => Alive (process.last tr)) tr ↔ Machine.Guarded SafeEvent tr) := by
  have hexec : (process.exec hungUpOffering).isSome := by rfl
  obtain ⟨tr, htr⟩ := Option.isSome_iff_exists.mp hexec
  exact ⟨tr, htr, neverTraps_iff (Machine.run_of_exec htr)⟩

end SignalIOS.Call
