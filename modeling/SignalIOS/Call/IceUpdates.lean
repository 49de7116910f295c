import SignalIOS.Call.Occurrences

/-! The ICE updates of outgoing calls: buffered until the answer comes, sent at once after it. -/
namespace SignalIOS.Call
open SignalIOS.Lib

namespace Session
variable {S S' : Session} {e : Event} {i : Input} {c : CallRef}

theorem Turn.candidate_cases {message : OWSCallIceUpdateMessage}
    (ht : S.Turn e (.candidate message) S') :
    S.immediate = false ∧ S' = S.buffer message ∨ S.immediate = true ∧ S' = S.send message := by
  cases ht with
  | buffered e message hcall himmediate => exact .inl ⟨himmediate, rfl⟩
  | sent e message hcall himmediate => exact .inr ⟨himmediate, rfl⟩
  | ended ht =>
    cases ht with
    | failed e i error hcall hi => simp at hi

/-- Other events send no ICE updates, and leave the buffer of the current call alone. -/
theorem Turn.ice_same (ht : S.Turn e i S') (hS : S.WellFormed) (hcall : S.call = some c)
    (hanswer : i ≠ .answer) (hcandidate : ∀ message, i ≠ .candidate message) :
    S'.iceUpdates = S.iceUpdates ∧ (S'.call = none ∨
      S'.call = some c ∧ S'.immediate = S.immediate ∧ S'.pending = S.pending) := by
  cases ht with
  | aside ht =>
    have hsame := ht.sameCurrent hS
    exact ⟨hsame.iceUpdates, .inr ⟨hsame.call.trans hcall, hsame.immediate, hsame.pending⟩⟩
  | ended ht =>
    refine ⟨?_, .inl ht.quiet.call⟩
    cases ht with
    | answerFailed => exact absurd rfl hanswer
    | _ => rfl
  | placed _ hnone | placedStale _ hnone | offered _ _ _ hnone =>
    exact nomatch hcall.symm.trans hnone
  | answerReceived => exact absurd rfl hanswer
  | buffered e message | sent e message => exact absurd rfl (hcandidate message)
  | idle | madeOutgoing | madeIncoming | rang | connected | answered | muted | videoSet
  | application => exact ⟨rfl, .inr ⟨hcall, rfl, rfl⟩⟩

/-- A call begins with an empty buffer. -/
theorem Turn.ice_begin (ht : S.Turn e i S') (hS : S.WellFormed) (hcall : S.call = none) :
    ∀ d, S'.call = some d → (S'.calls.get d).direction = .outgoing →
      d ∈ S.unplaced ∧ S'.immediate = false ∧ S'.pending = [] := by
  intro d hd hdirection
  have hnone {T : Session} (hT : T.call = S.call) (hd : T.call = some d) : False :=
    nomatch (hT.trans hcall).symm.trans hd
  cases ht with
  | aside ht => exact (hnone (ht.sameCurrent hS).call hd).elim
  | ended ht => exact nomatch ht.quiet.call.symm.trans hd
  | placed hc | placedStale hc =>
    obtain rfl := Option.some.inj hd
    exact ⟨hc, rfl, rfl⟩
  | offered =>
    obtain rfl := Option.some.inj hd
    simp [SignalCall.incomingCall] at hdirection
  | idle | madeOutgoing | madeIncoming | rang | connected | answered | muted | videoSet
  | application | answerReceived | buffered | sent => exact (hnone rfl hd).elim

end Session

/-- The local ICE candidates of `call`, in order. -/
def localCandidates (call : CallRef) : Trace → List OWSCallIceUpdateMessage
  | [] => []
  | (e, _) :: tr =>
    localCandidates call tr ++ (candidateMessage call (callMachine.last tr) e).toList

/-- The ICE updates sent while `call` was current, in order. -/
def sentUpdates (call : CallRef) : Trace → List OWSCallIceUpdateMessage
  | [] => []
  | (_, s) :: tr =>
    sentUpdates call tr ++
      if (callMachine.last tr).call = some call then
        s.core.iceUpdates.drop (callMachine.last tr).core.iceUpdates.length
      else []

def ReceivedAnswer (call : CallRef) (tr : Trace) : Prop :=
  callMachine.Happened (ReceivesAnswer call) tr

/-- Of an outgoing call, no ICE updates are sent before its answer, and from then on each of its
local candidates exactly once. -/
def SendsEachCandidateOnce (tr : Trace) : Prop :=
  ∀ c, ((callMachine.last tr).calls.get c).direction = .outgoing →
    (ReceivedAnswer c tr → (sentUpdates c tr).Perm (localCandidates c tr)) ∧
      (¬ ReceivedAnswer c tr → sentUpdates c tr = [])

/-- A second answer to an outgoing call finds no candidates from before the first one. -/
def RepeatsNoCandidates (tr : Trace) (e : Event) : Prop :=
  ∀ c, ((callMachine.last tr).calls.get c).direction = .outgoing →
    ReceivesAnswer c (callMachine.last tr) e → ReceivedAnswer c tr →
    (callMachine.last tr).pendingIceUpdateMessages = []

/-- What the buffer of the call service has to do with the history of the current call. -/
structure BufferInvariant (tr : Trace) : Prop where
  fresh : ∀ c, c ∈ (callMachine.last tr).unplaced ∨ (callMachine.last tr).calls.next ≤ c →
    localCandidates c tr = [] ∧ sentUpdates c tr = [] ∧ ¬ ReceivedAnswer c tr
  immediate : ∀ c, (callMachine.last tr).call = some c →
    ((callMachine.last tr).calls.get c).direction = .outgoing →
    ((callMachine.last tr).sendIceUpdatesImmediately = true ↔ ReceivedAnswer c tr)
  pending : ∀ c, (callMachine.last tr).call = some c →
    ((callMachine.last tr).calls.get c).direction = .outgoing → ¬ ReceivedAnswer c tr →
    (callMachine.last tr).pendingIceUpdateMessages = localCandidates c tr

section
variable {tr : Trace} {e : Event} {s : State} {c : CallRef}

/-- A turn while another call or none is current. -/
theorem ice_of_not_current (hc : (callMachine.last tr).call ≠ some c) :
    localCandidates c ((e, s) :: tr) = localCandidates c tr ∧
      sentUpdates c ((e, s) :: tr) = sentUpdates c tr ∧
      (ReceivedAnswer c ((e, s) :: tr) ↔ ReceivedAnswer c tr) := by
  have hnone : candidateMessage c (callMachine.last tr) e = none := by
    unfold candidateMessage
    split
    · exact if_neg fun h => hc h.1
    · rfl
  refine ⟨by simp [localCandidates, hnone], by simp [sentUpdates, hc], ?_⟩
  exact or_iff_right fun h => hc h.1

/-- What a turn means for the ICE updates of the current call `c`. -/
inductive IceTurn (c : CallRef) (tr : Trace) (e : Event) (s : State) : Prop
  | buffered (message : OWSCallIceUpdateMessage)
    (himmediate : (callMachine.last tr).sendIceUpdatesImmediately = false)
    (hs : s.core = (callMachine.last tr).core.buffer message)
    (he : ¬ ReceivesAnswer c (callMachine.last tr) e)
    (hlocal : localCandidates c ((e, s) :: tr) = localCandidates c tr ++ [message])
    (hsent : sentUpdates c ((e, s) :: tr) = sentUpdates c tr)
  | sent (message : OWSCallIceUpdateMessage)
    (himmediate : (callMachine.last tr).sendIceUpdatesImmediately = true)
    (hs : s.core = (callMachine.last tr).core.send message)
    (he : ¬ ReceivesAnswer c (callMachine.last tr) e)
    (hlocal : localCandidates c ((e, s) :: tr) = localCandidates c tr ++ [message])
    (hsent : sentUpdates c ((e, s) :: tr) = sentUpdates c tr ++ [message])
  | answered (he : ReceivesAnswer c (callMachine.last tr) e)
    (hs : s.call = none ∨ s.core = (callMachine.last tr).core.sendPending)
    (hlocal : localCandidates c ((e, s) :: tr) = localCandidates c tr)
    (hsent : sentUpdates c ((e, s) :: tr) =
      sentUpdates c tr ++ (callMachine.last tr).pendingIceUpdateMessages)
  | other (he : ¬ ReceivesAnswer c (callMachine.last tr) e)
    (hs : s.call = none ∨ s.call = some c ∧
      s.sendIceUpdatesImmediately = (callMachine.last tr).sendIceUpdatesImmediately ∧
      s.pendingIceUpdateMessages = (callMachine.last tr).pendingIceUpdateMessages)
    (hlocal : localCandidates c ((e, s) :: tr) = localCandidates c tr)
    (hsent : sentUpdates c ((e, s) :: tr) = sentUpdates c tr)

theorem iceTurn_of_step (hrun : callMachine.Run tr)
    (hstep : callMachine.step (callMachine.last tr) e = some s)
    (hcall : (callMachine.last tr).call = some c) : IceTurn c tr e s := by
  have ht := turn_of_run hrun hstep
  have hwf := wellFormed_of_run hrun
  have hsent (messages : List OWSCallIceUpdateMessage)
      (hice : s.core.iceUpdates = (callMachine.last tr).core.iceUpdates ++ messages) :
      sentUpdates c ((e, s) :: tr) = sentUpdates c tr ++ messages := by
    rw [sentUpdates, if_pos hcall, hice, List.drop_left]
  have hanswer := State.input_answer (e := e) hcall
  by_cases hcandidate : ∃ message, (callMachine.last tr).core.input e = .candidate message
  · obtain ⟨message, hinput⟩ := hcandidate
    have he : ¬ ReceivesAnswer c (callMachine.last tr) e := fun h =>
      nomatch hinput.symm.trans (hanswer.mpr h)
    have hlocal : localCandidates c ((e, s) :: tr) = localCandidates c tr ++ [message] := by
      rw [localCandidates, (State.input_candidate hcall).mp hinput, Option.toList_some]
    rw [hinput] at ht
    rcases ht.candidate_cases with ⟨himmediate, hs⟩ | ⟨himmediate, hs⟩
    · refine .buffered message himmediate hs he hlocal ?_
      simpa using hsent [] (by rw [hs, Session.buffer_iceUpdates, List.append_nil])
    · exact .sent message himmediate hs he hlocal (hsent _ (by rw [hs]; rfl))
  · have hnone : candidateMessage c (callMachine.last tr) e = none := by
      rw [Option.eq_none_iff_forall_ne_some]
      exact fun message h => hcandidate ⟨message, (State.input_candidate hcall).mpr h⟩
    have hlocal : localCandidates c ((e, s) :: tr) = localCandidates c tr := by
      rw [localCandidates, hnone, Option.toList_none, List.append_nil]
    by_cases hinput : (callMachine.last tr).core.input e = .answer
    · have he := hanswer.mp hinput
      rw [hinput] at ht
      rcases ht.answer_cases with ⟨-, hs⟩ | ⟨-, hs, hice⟩
      · exact .answered he (.inr hs) hlocal (hsent _ (by rw [hs]; rfl))
      · exact .answered he (.inl hs) hlocal (hsent _ hice)
    · have hsame := ht.ice_same hwf hcall hinput fun message h => hcandidate ⟨message, h⟩
      refine .other (mt hanswer.mpr hinput) hsame.2 hlocal ?_
      simpa using hsent [] (by rw [hsame.1, List.append_nil])

theorem bufferInvariant_of_run (h : callMachine.Run tr) : BufferInvariant tr := by
  refine h.invariant ⟨fun c _ => ⟨rfl, rfl, id⟩, fun c hc => (nomatch hc), fun c hc => (nomatch hc)⟩
    fun tr e s hrun hinv hstep => ?_
  have ht := turn_of_run hrun hstep
  have hwf := wellFormed_of_run hrun
  have hcurrent (c : CallRef) (hc : s.call = some c)
      (hdirection : (s.calls.get c).direction = .outgoing) :
      (s.sendIceUpdatesImmediately = true ↔ ReceivedAnswer c ((e, s) :: tr)) ∧
        (¬ ReceivedAnswer c ((e, s) :: tr) →
          s.pendingIceUpdateMessages = localCandidates c ((e, s) :: tr)) := by
    cases hcall : (callMachine.last tr).call with
    | none =>
      obtain ⟨hplaced, himmediate, hpending⟩ := ht.ice_begin hwf hcall c hc hdirection
      obtain ⟨hlocal, -, hreceived⟩ := hinv.fresh c (.inl hplaced)
      have hne : (callMachine.last tr).call ≠ some c := by simp [hcall]
      obtain ⟨hlocal', -, hreceived'⟩ := ice_of_not_current (e := e) (s := s) hne
      have himmediate : s.sendIceUpdatesImmediately = false := himmediate
      rw [hlocal', hreceived', hlocal]
      exact ⟨by simp [himmediate, hreceived], fun _ => hpending⟩
    | some d =>
      have hallocated := hwf.allocated d hcall
      have hbefore (hd : s.call = some d) (hdirection : (s.calls.get d).direction = .outgoing) :=
        hinv.immediate d hcall ((direction_of_step hrun hstep hallocated).symm.trans hdirection)
      have hpending (hd : s.call = some d) (hdirection : (s.calls.get d).direction = .outgoing) :=
        hinv.pending d hcall ((direction_of_step hrun hstep hallocated).symm.trans hdirection)
      cases iceTurn_of_step hrun hstep hcall with
      | buffered message himmediate hs he hlocal hsent =>
        obtain rfl := Option.some.inj (hcall.symm.trans ((congrArg Session.call hs).symm.trans hc))
        have himmediate' : s.sendIceUpdatesImmediately = false :=
          (congrArg Session.immediate hs).trans himmediate
        have hpending' : s.pendingIceUpdateMessages = _ ++ [message] := congrArg Session.pending hs
        have hreceived : ReceivedAnswer d ((e, s) :: tr) ↔ ReceivedAnswer d tr := or_iff_right he
        rw [hreceived, hlocal, himmediate', ← himmediate, hpending']
        exact ⟨hbefore hc hdirection, fun hnot => by
          rw [State.core_pending, hpending hc hdirection hnot]⟩
      | sent message himmediate hs he hlocal hsent =>
        obtain rfl := Option.some.inj (hcall.symm.trans ((congrArg Session.call hs).symm.trans hc))
        have himmediate' : s.sendIceUpdatesImmediately = true :=
          (congrArg Session.immediate hs).trans himmediate
        have hreceived : ReceivedAnswer d ((e, s) :: tr) :=
          .inr ((hbefore hc hdirection).mp himmediate)
        exact ⟨iff_of_true himmediate' hreceived, fun hnot => absurd hreceived hnot⟩
      | answered he hs hlocal hsent =>
        rcases hs with hs | hs
        · exact nomatch hs.symm.trans hc
        · obtain rfl :=
            Option.some.inj (hcall.symm.trans ((congrArg Session.call hs).symm.trans hc))
          have himmediate' : s.sendIceUpdatesImmediately = true := congrArg Session.immediate hs
          exact ⟨iff_of_true himmediate' (.inl he), fun hnot => absurd (.inl he) hnot⟩
      | other he hs hlocal hsent =>
        rcases hs with hs | ⟨hs, himmediate, hpending'⟩
        · exact nomatch hs.symm.trans hc
        · obtain rfl := Option.some.inj (hs.symm.trans hc)
          have hreceived : ReceivedAnswer d ((e, s) :: tr) ↔ ReceivedAnswer d tr := or_iff_right he
          rw [hreceived, himmediate, hpending', hlocal]
          exact ⟨hbefore hc hdirection, hpending hc hdirection⟩
  refine ⟨fun c hc => ?_, fun c hc hdirection => (hcurrent c hc hdirection).1,
    fun c hc hdirection => (hcurrent c hc hdirection).2⟩
  have hbefore := ht.not_placed hc
  have hne : (callMachine.last tr).call ≠ some c := fun hcall => hbefore.elim
    (fun hplaced => hwf.current_not_unplaced hcall hplaced rfl)
    fun hle => Nat.not_lt.mpr hle (hwf.allocated c hcall)
  obtain ⟨hlocal, hsent, hreceived⟩ := ice_of_not_current (e := e) (s := s) hne
  rw [hlocal, hsent, hreceived]
  exact hinv.fresh c hbefore

theorem sendsEachCandidateOnce_iff (h : callMachine.Run tr) :
    Machine.Always SendsEachCandidateOnce tr ↔ Machine.Guarded RepeatsNoCandidates tr := by
  refine h.always_iff_guarded (fun c _ => ⟨fun hreceived => hreceived.elim, fun _ => rfl⟩)
    fun tr e s hrun hP hstep => ?_
  have ht := turn_of_run hrun hstep
  have hwf := wellFormed_of_run hrun
  have hinv := bufferInvariant_of_run hrun
  constructor
  · intro hP' c hdirection he hreceived
    have hcall := he.1
    have hallocated := hwf.allocated c hcall
    have hdirection' := (direction_of_step hrun hstep hallocated).trans hdirection
    have hperm := (hP c hdirection).1 hreceived
    have hperm' := (hP' c hdirection').1 (.inr hreceived)
    cases iceTurn_of_step hrun hstep hcall with
    | answered _ _ hlocal hsent =>
      rw [hlocal, hsent] at hperm'
      have hlength := hperm'.length_eq
      rw [List.length_append, hperm.length_eq] at hlength
      exact List.eq_nil_of_length_eq_zero (by omega)
    | buffered _ _ _ he' | sent _ _ _ he' | other he' => exact absurd he he'
  · intro hG c hdirection
    by_cases hcall : (callMachine.last tr).call = some c
    · have hdirection :=
        (direction_of_step hrun hstep (hwf.allocated c hcall)).symm.trans hdirection
      have himmediate := hinv.immediate c hcall hdirection
      cases iceTurn_of_step hrun hstep hcall with
      | buffered message hfalse hs he hlocal hsent =>
        have hnot : ¬ ReceivedAnswer c tr := fun hreceived =>
          nomatch hfalse.symm.trans (himmediate.mpr hreceived)
        exact ⟨fun hreceived => absurd ((or_iff_right he).mp hreceived) hnot,
          fun _ => hsent.trans ((hP c hdirection).2 hnot)⟩
      | sent message htrue hs he hlocal hsent =>
        have hreceived := himmediate.mp htrue
        rw [hlocal, hsent]
        exact ⟨fun _ => ((hP c hdirection).1 hreceived).append_right _,
          fun hnot => absurd (.inr hreceived) hnot⟩
      | answered he hs hlocal hsent =>
        refine ⟨fun _ => ?_, fun hnot => absurd (.inl he) hnot⟩
        rw [hlocal, hsent]
        by_cases hreceived : ReceivedAnswer c tr
        · rw [hG c hdirection he hreceived, List.append_nil]
          exact (hP c hdirection).1 hreceived
        · rw [(hP c hdirection).2 hreceived, hinv.pending c hcall hdirection hreceived,
            List.nil_append]
      | other he hs hlocal hsent =>
        have hreceived : ReceivedAnswer c ((e, s) :: tr) ↔ ReceivedAnswer c tr := or_iff_right he
        rw [hreceived, hlocal, hsent]
        exact hP c hdirection
    · obtain ⟨hlocal, hsent, hreceived⟩ := ice_of_not_current (e := e) (s := s) hcall
      rw [hlocal, hsent, hreceived]
      rcases Nat.lt_or_ge c (callMachine.last tr).calls.next with hlt | hge
      · exact hP c ((direction_of_step hrun hstep hlt).symm.trans hdirection)
      · obtain ⟨hlocal, hsent, hreceived⟩ := hinv.fresh c (.inr hge)
        rw [hlocal, hsent]
        exact ⟨fun _ => .nil, fun _ => rfl⟩

end

/-- The answer to an outgoing call arrives twice, after its first candidate. -/
def answeredTwice : List Event :=
  [.user (.newOutgoingCall "+15550001" 7), .user (.handleOutgoingCall 0),
    .continuation 0 (.iceServers (.ok ⟨"password", "username", []⟩)),
    .client 0 (.addedLocalIceCandidate ⟨"candidate", 0, "audio"⟩),
    .received (.answer 7 "answer") "+15550001", .received (.answer 7 "answer") "+15550001"]

theorem sendsEachCandidateOnce_counterexample :
    ∃ tr, callMachine.exec answeredTwice = some tr ∧ callMachine.Run tr ∧
      ¬ Machine.Always SendsEachCandidateOnce tr := by
  have hexec : (callMachine.exec answeredTwice).map (fun tr =>
      (((callMachine.last tr).calls.get 0).direction, (sentUpdates 0 tr).length,
        (localCandidates 0 tr).length)) = some (.outgoing, 2, 1) := by rfl
  obtain ⟨tr, htr, hget⟩ := Option.map_eq_some_iff.mp hexec
  simp only [Prod.mk.injEq] at hget
  obtain ⟨hdirection, hsent, hlocal⟩ := hget
  refine ⟨tr, htr, Machine.run_of_exec htr, fun h => ?_⟩
  obtain ⟨honce, hnone⟩ := h.last 0 hdirection
  by_cases hreceived : ReceivedAnswer 0 tr
  · have hlength := (honce hreceived).length_eq
    omega
  · have hnil := hnone hreceived
    simp [hnil] at hsent

theorem sendsEachCandidateOnce_iff_of_answeredTwice :
    ∃ tr, callMachine.exec answeredTwice = some tr ∧
      (Machine.Always SendsEachCandidateOnce tr ↔ Machine.Guarded RepeatsNoCandidates tr) := by
  have hexec : (callMachine.exec answeredTwice).isSome := by rfl
  obtain ⟨tr, htr⟩ := Option.isSome_iff_exists.mp hexec
  exact ⟨tr, htr, sendsEachCandidateOnce_iff (Machine.run_of_exec htr)⟩

end SignalIOS.Call
