import SignalIOS.Call.Occurrences

/-! The timeout of a call's set-up, and its cancellation when the call connects. -/
namespace SignalIOS.Call
open SignalIOS.Lib

/-- The connected promise has won the race against the timeout. -/
def SetUp.isTimerCancelled : SetUp → Bool
  | .connected | .finished => true
  | _ => false

theorem SetUp.Advance.isTimerCancelled {s t : SetUp} (h : s.Advance t)
    (hs : s.isTimerCancelled = true) : t.isTimerCancelled = true := by
  cases h <;> simp_all [SetUp.isTimerCancelled]

namespace Session
variable {S S' : Session} {e : Event} {i : Input} {c : CallRef}

theorem isTimerCancelled_fulfilled (h : (S.setUp c).isTimerCancelled = true) :
    (S.fulfilled c).isTimerCancelled = true := by
  unfold fulfilled
  split_ifs
  · rfl
  · exact h

/-- A cancelled timer stays cancelled. -/
theorem Turn.isTimerCancelled (ht : S.Turn e i S') (hS : S.WellFormed)
    (h : (S.setUp c).isTimerCancelled = true) : (S'.setUp c).isTimerCancelled = true := by
  have hstage {T : Session} {d : CallRef} {stage : SetUp} (hT : T.setUp = S.setUp)
      (hd : (S.setUp d).isTimerCancelled = true → stage.isTimerCancelled = true) :
      ((T.stage d stage).setUp c).isTimerCancelled = true := by
    rw [stage_setUp]
    split_ifs with hcd
    · exact hd (hcd ▸ h)
    · rwa [hT]
  cases ht with
  | aside ht =>
    cases ht with
    | created | refused | turnedAway => exact h
    | advanced k hadv => exact hstage rfl hadv.isTimerCancelled
    | raced hc => exact hstage (T := S) rfl (by simp [hc, SetUp.isTimerCancelled])
  | ended ht =>
    cases ht with
    | caughtFailed error hcall hd | caughtCleared hcall hd =>
      exact hstage (T := S) rfl (by simp [hd, SetUp.isTimerCancelled])
    | _ => exact h
  | placed hc | placedStale hc =>
    rw [place_setUp]
    split_ifs with hcd
    · rw [hcd, (hS.unplaced _ hc).2.1] at h
      simp [SetUp.isTimerCancelled] at h
    · exact h
  | offered =>
    rw [offer_setUp]
    split_ifs with hcd
    · rw [hcd, hS.notStarted _ (Nat.le_refl _)] at h
      simp [SetUp.isTimerCancelled] at h
    · exact h
  | madeOutgoing result hc | madeIncoming result hc =>
    exact hstage (T := S) rfl (by simp [hc, SetUp.isTimerCancelled])
  | connected | answered => exact isTimerCancelled_fulfilled h
  | idle | rang | muted | videoSet | application | answerReceived | buffered | sent => exact h

end Session

/-- The turn from `s` to `s'` runs the `catch` of the timeout of `call`, which fails the call. -/
def TimesOut (call : CallRef) (s : State) (e : Event) (s' : State) : Prop :=
  e = .continuation call .caught ∧
    (∃ description, s.setUp call = .failed (.callError (.timeout description call))) ∧
    (s.calls.get call).state ≠ .localFailure ∧ (s'.calls.get call).state = .localFailure

/-- The timer of every call that has been connected is cancelled. The last turn did not fail such
a call by its timer, and settled no promise of another call when it connected one. -/
def ConnectingCancelsTimer (tr : Trace) : Prop :=
  (∀ c, EverConnected c tr → ((callMachine.last tr).setUp c).isTimerCancelled = true) ∧
    match tr with
    | [] => True
    | (e, s') :: tr =>
      (∀ c, EverConnected c tr → ¬ TimesOut c (callMachine.last tr) e s') ∧
        ∀ c, HandlesConnectedCall c (callMachine.last tr) e →
          ∀ d, d ≠ c → s'.setUp d = (callMachine.last tr).setUp d

/-- `fulfillCallConnectedPromise` settles the race of `call` if that is still to be settled, and
no other. -/
def SettlesOwnRace (call : CallRef) (s : State) : Prop :=
  s.fulfillCallConnectedPromise = some call ∧ s.setUp call = .race ∨
    (s.setUp call).isTimerCancelled = true ∧
      ∀ d, s.fulfillCallConnectedPromise = some d → s.setUp d ≠ .race

def ConnectsInRace (tr : Trace) (e : Event) : Prop :=
  ∀ c, HandlesConnectedCall c (callMachine.last tr) e → SettlesOwnRace c (callMachine.last tr)

theorem settlesOwnRace_iff (s : State) (c : CallRef) :
    SettlesOwnRace c s ↔ (s.core.fulfilled c).isTimerCancelled = true ∧
      ∀ d, d ≠ c → s.core.fulfilled d = s.setUp d := by
  unfold SettlesOwnRace Session.fulfilled
  constructor
  · rintro (⟨hpromise, hrace⟩ | ⟨hcancelled, hother⟩)
    · refine ⟨by simp [hpromise, hrace, SetUp.isTimerCancelled], fun d hd => ?_⟩
      simp [hpromise, Ne.symm hd]
    · have hsame (d : CallRef) : ¬(s.core.promise = some d ∧ s.core.setUp d = .race) := fun h =>
        hother d h.1 h.2
      exact ⟨by rwa [if_neg (hsame c)], fun d _ => if_neg (hsame d)⟩
  · rintro ⟨hcancelled, hother⟩
    by_cases hc : s.core.promise = some c ∧ s.core.setUp c = .race
    · exact .inl hc
    · rw [if_neg hc] at hcancelled
      refine .inr ⟨hcancelled, fun d hpromise hrace => ?_⟩
      have hd : d ≠ c := by
        rintro rfl
        exact hc ⟨hpromise, hrace⟩
      have := hother d hd
      rw [if_pos ⟨hpromise, hrace⟩] at this
      exact nomatch this.trans hrace

theorem connectingCancelsTimer_iff {tr : Trace} (h : callMachine.Run tr) :
    Machine.Always ConnectingCancelsTimer tr ↔ Machine.Guarded ConnectsInRace tr := by
  refine h.always_iff_guarded ⟨fun c hc => (nomatch hc), trivial⟩ fun tr e s hrun hP hstep => ?_
  have ht := turn_of_run hrun hstep
  have hwf := wellFormed_of_run hrun
  have hsetUp {c : CallRef} (hhandles : HandlesConnectedCall c (callMachine.last tr) e) :
      s.setUp = (callMachine.last tr).core.fulfilled := by
    obtain ⟨client, -, hs | hs⟩ := hhandles.core hwf hstep <;> exact congrArg Session.setUp hs
  constructor
  · rintro ⟨hcancelled, -, hother⟩ c hhandles
    rw [settlesOwnRace_iff, ← hsetUp hhandles]
    exact ⟨hcancelled c (.inl (hhandles.connected hwf hstep).1), hother c hhandles⟩
  · intro hG
    refine ⟨fun c hc => ?_, fun c hc htimesOut => ?_, fun c hhandles d hd => ?_⟩
    · rcases hc with hc | hc
      · rcases ht.state_connected hc with hbefore | ⟨hcall, hclient, hinput⟩
        · exact ht.isTimerCancelled hwf (hP.1 c (.of_last hbefore))
        · have hhandles : HandlesConnectedCall c (callMachine.last tr) e :=
            hinput.imp (State.input_accepted hcall).mp fun hinput =>
              ⟨(State.input_userAnswers hcall).mp hinput, hclient⟩
          have hsettles := ((settlesOwnRace_iff _ c).mp (hG c hhandles)).1
          rwa [← hsetUp hhandles] at hsettles
      · exact ht.isTimerCancelled hwf (hP.1 c hc)
    · obtain ⟨-, ⟨description, hfailed⟩, -⟩ := htimesOut
      have := hP.1 c hc
      simp [hfailed, SetUp.isTimerCancelled] at this
    · rw [hsetUp hhandles]
      exact ((settlesOwnRace_iff _ c).mp (hG c hhandles)).2 d hd

/-- The user answers before the answer message is sent. The timer starts after that, and fails
the connected call. -/
def answeredBeforeSent : List Event :=
  [.receivedOffer 7 "offer" "+15550001" false,
    .continuation 0 (.iceServers (.ok ⟨"password", "username", []⟩)),
    .continuation 0 (.negotiated "answer"), .client 0 .iceConnected, .user (.handleAnswerCall 0),
    .continuation 0 .sent, .continuation 0 .connectingTimeout, .continuation 0 .caught]

theorem connectingCancelsTimer_counterexample :
    ∃ tr, callMachine.exec answeredBeforeSent = some tr ∧ callMachine.Run tr ∧
      EverConnected 0 tr ∧ ((callMachine.last tr).calls.get 0).state = .localFailure ∧
      ¬ Machine.Always ConnectingCancelsTimer tr := by
  have hexec : (callMachine.exec answeredBeforeSent).map (fun tr =>
      (tr.any fun p => (p.2.calls.get 0).state == .connected,
        ((callMachine.last tr).calls.get 0).state, (callMachine.last tr).setUp 0)) =
      some (true, .localFailure, .caught) := by rfl
  obtain ⟨tr, htr, hget⟩ := Option.map_eq_some_iff.mp hexec
  simp only [Prod.mk.injEq] at hget
  obtain ⟨hany, hstate, hsetUp⟩ := hget
  obtain ⟨p, hp, hconnected⟩ := List.any_eq_true.mp hany
  have hever : EverConnected 0 tr := .of_mem hp (by simpa using hconnected)
  refine ⟨tr, htr, Machine.run_of_exec htr, hever, hstate, fun h => ?_⟩
  have hcancelled := h.last.1 0 hever
  rw [hsetUp] at hcancelled
  exact nomatch hcancelled

theorem connectingCancelsTimer_iff_of_answeredBeforeSent :
    ∃ tr, callMachine.exec answeredBeforeSent = some tr ∧
      (Machine.Always ConnectingCancelsTimer tr ↔ Machine.Guarded ConnectsInRace tr) := by
  have hexec : (callMachine.exec answeredBeforeSent).isSome := by rfl
  obtain ⟨tr, htr⟩ := Option.isSome_iff_exists.mp hexec
  exact ⟨tr, htr, connectingCancelsTimer_iff (Machine.run_of_exec htr)⟩

end SignalIOS.Call
