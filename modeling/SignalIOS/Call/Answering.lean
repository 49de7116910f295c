import SignalIOS.Call.Occurrences

/-! Who answers an incoming call. -/
namespace SignalIOS.Call
open SignalIOS.Lib

/-- An incoming call that is connected, or whose audio the last turn enabled on connecting, has
been answered by the user. -/
def ConnectsOnlyAnswered (tr : Trace) : Prop :=
  ∀ c, ((callMachine.last tr).calls.get c).direction = .incoming →
    ((callMachine.last tr).calls.get c).state = .connected ∨
      callMachine.Latest (HandlesConnectedCall c) tr →
    Answered c tr

/-- A Connected message is received for an incoming call only after the user has answered it. -/
def NoEarlyConnected (tr : Trace) (e : Event) : Prop :=
  ∀ c, ((callMachine.last tr).calls.get c).direction = .incoming →
    ReceivesConnected c (callMachine.last tr) e → Answered c tr

theorem connectsOnlyAnswered_iff {tr : Trace} (h : callMachine.Run tr) :
    Machine.Always ConnectsOnlyAnswered tr ↔ Machine.Guarded NoEarlyConnected tr := by
  refine h.always_iff_guarded
    (fun c hc => nomatch (show CallDirection.outgoing = .incoming from hc))
    fun tr e s hrun hP hstep => ?_
  have ht := turn_of_run hrun hstep
  have hwf := wellFormed_of_run hrun
  constructor
  · intro hP' c hc hreceives
    have hcurrent := hwf.allocated c hreceives.1
    have hanswered := hP' c ((direction_of_step hrun hstep hcurrent).trans hc)
      (.inr (.inl hreceives))
    rcases hanswered with ⟨-, he⟩ | hanswered
    · obtain ⟨-, client, message, -, rfl, -⟩ := hreceives
      simp at he
    · exact hanswered
  · intro hG c hc hconnects
    have hreceives (hreceives : ReceivesConnected c (callMachine.last tr) e) :
        Answered c ((e, s) :: tr) :=
      .inr (hG c ((direction_of_step hrun hstep (hwf.allocated c hreceives.1)).symm.trans hc)
        hreceives)
    rcases hconnects with hconnected | hhandles | hanswers
    · rcases ht.state_connected hconnected with hbefore | ⟨hcall, -, hinput | hinput⟩
      · have hdirection := direction_of_step hrun hstep (connected_allocated hrun hbefore)
        exact .inr (hP c (hdirection.symm.trans hc) (.inl hbefore))
      · exact hreceives ((State.input_accepted hcall).mp hinput)
      · exact .inl ((State.input_userAnswers hcall).mp hinput)
    · exact hreceives hhandles
    · exact .inl hanswers.1

/-- The caller itself has the callee connect: its Connected message comes before any answer. -/
def earlyConnected : List Event :=
  [.receivedOffer 7 "offer" "+15550001" false,
    .continuation 0 (.iceServers (.ok ⟨"password", "username", []⟩)),
    .continuation 0 (.negotiated "answer"), .continuation 0 .sent, .client 0 .iceConnected,
    .client 0 (.received { connected := some 7 })]

theorem connectsOnlyAnswered_counterexample :
    ∃ tr, callMachine.exec earlyConnected = some tr ∧ callMachine.Run tr ∧
      ¬ Machine.Always ConnectsOnlyAnswered tr := by
  have hexec : (callMachine.exec earlyConnected).map (fun tr =>
      (((callMachine.last tr).calls.get 0).direction, ((callMachine.last tr).calls.get 0).state)) =
      some (.incoming, .connected) := by rfl
  obtain ⟨tr, htr, hget⟩ := Option.map_eq_some_iff.mp hexec
  refine ⟨tr, htr, Machine.run_of_exec htr, fun h => ?_⟩
  have hanswered := h.last 0 (congrArg Prod.fst hget) (.inl (congrArg Prod.snd hget))
  obtain ⟨e, he, s, -, hs⟩ := hanswered.exists_event
  rw [Machine.map_fst_of_exec htr] at he
  rcases hs with rfl | rfl <;> simp [earlyConnected] at he

theorem connectsOnlyAnswered_iff_of_earlyConnected :
    ∃ tr, callMachine.exec earlyConnected = some tr ∧
      (Machine.Always ConnectsOnlyAnswered tr ↔ Machine.Guarded NoEarlyConnected tr) := by
  have hexec : (callMachine.exec earlyConnected).isSome := by rfl
  obtain ⟨tr, htr⟩ := Option.isSome_iff_exists.mp hexec
  exact ⟨tr, htr, connectsOnlyAnswered_iff (Machine.run_of_exec htr)⟩

end SignalIOS.Call
