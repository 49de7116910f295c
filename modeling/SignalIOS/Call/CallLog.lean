import SignalIOS.Call.Occurrences
import SignalIOS.Call.Records

/-! The call log over whole runs. -/
namespace SignalIOS.Call
open SignalIOS.Lib

/-- The calls reported as missed so far, in order. -/
def State.reportedMissed (s : State) : List CallRef := s.log.flatMap Effect.missed

/-- The calls are logged as what they have been. -/
structure CallLogAccurate (tr : Trace) : Prop where
  once : ∀ c, (recordsOf (callMachine.last tr).records c).length ≤ 1
  outgoing : ∀ c, ((callMachine.last tr).calls.get c).direction = .outgoing →
    ∀ r ∈ recordsOf (callMachine.last tr).records c,
      (EverConnected c tr → ((callMachine.last tr).records.get r).callType = .outgoing) ∧
        (¬ EverConnected c tr →
          ((callMachine.last tr).records.get r).callType = .outgoingIncomplete)
  answered : ∀ c, ((callMachine.last tr).calls.get c).direction = .incoming → Answered c tr →
    ∃ r ∈ recordsOf (callMachine.last tr).records c,
      ((callMachine.last tr).records.get r).callType = .incoming
  missed : ∀ c, ((callMachine.last tr).calls.get c).direction = .incoming →
    c < (callMachine.last tr).calls.next → (callMachine.last tr).call ≠ some c →
    ¬ Answered c tr → ¬ Declined c tr →
    (∃ r, recordsOf (callMachine.last tr).records c = [r] ∧
      ((callMachine.last tr).records.get r).callType = .missed) ∧
      (callMachine.last tr).reportedMissed.count c = 1
  reported : ∀ c ∈ (callMachine.last tr).reportedMissed,
    ((callMachine.last tr).calls.get c).direction = .incoming ∧ ¬ Answered c tr ∧ ¬ Declined c tr

/-- An outgoing call is not answered by the user, and not hung up by the other side unless it is
connected. An incoming call is answered once, when it has a client, and until then ends only by
the user's declining it or by a hang-up from the other side while it is not connected. -/
structure KeepsCallLog (tr : Trace) (e : Event) : Prop where
  outgoing : ∀ c, (callMachine.last tr).call = some c →
    ((callMachine.last tr).calls.get c).direction = .outgoing →
    (UserAnswers c (callMachine.last tr) e → (callMachine.last tr).peerConnectionClient = none) ∧
      ((callMachine.last tr).core.input e = .remoteHangup →
        ((callMachine.last tr).calls.get c).state.isMissedByHangup = false)
  answered : ∀ c, (callMachine.last tr).call = some c →
    ((callMachine.last tr).calls.get c).direction = .incoming → Answered c tr →
    ¬ UserAnswers c (callMachine.last tr) e
  unanswered : ∀ c, (callMachine.last tr).call = some c →
    ((callMachine.last tr).calls.get c).direction = .incoming → ¬ Answered c tr →
    (callMachine.last tr).core.input e ∉ [Input.failure, .remoteBusy, .reset] ∧
      ((callMachine.last tr).core.input e = .answer ∨ UserAnswers c (callMachine.last tr) e →
        (callMachine.last tr).peerConnectionClient ≠ none) ∧
      ((callMachine.last tr).core.input e = .remoteHangup →
        ((callMachine.last tr).calls.get c).state.isMissedByHangup = true)

/-- What the call log has to do with the history, in every run. -/
structure LogInvariant (tr : Trace) : Prop where
  owns : (callMachine.last tr).core.OwnRecords
  fresh : ∀ c, c ∈ (callMachine.last tr).unplaced ∨ (callMachine.last tr).calls.next ≤ c →
    recordsOf (callMachine.last tr).records c = [] ∧
      (callMachine.last tr).reportedMissed.count c = 0 ∧
      ¬ Answered c tr ∧ ¬ Declined c tr ∧ ¬ EverConnected c tr
  current : ∀ c, (callMachine.last tr).call = some c →
    ¬ Declined c tr ∧ (callMachine.last tr).reportedMissed.count c = 0
  unanswered : ∀ c, (callMachine.last tr).call = some c →
    ((callMachine.last tr).calls.get c).direction = .incoming → ¬ Answered c tr →
    recordsOf (callMachine.last tr).records c = []
  answered : ∀ c, (callMachine.last tr).call = some c →
    ((callMachine.last tr).calls.get c).direction = .incoming → Answered c tr →
    ((callMachine.last tr).calls.get c).state = .connected ∧
      (callMachine.last tr).peerConnectionClient ≠ none
  placed : ∀ c, (callMachine.last tr).call = some c →
    ((callMachine.last tr).calls.get c).direction = .outgoing →
    ((callMachine.last tr).calls.get c).callRecord ≠ none

section
variable {tr : Trace} {e : Event} {s : State} {c : CallRef}

theorem answered_cons : Answered c ((e, s) :: tr) ↔
    (callMachine.last tr).call = some c ∧ (callMachine.last tr).core.input e = .userAnswers ∨
      Answered c tr := by
  refine or_congr ⟨fun h => ⟨h.1, (State.input_userAnswers h.1).mpr h⟩, fun h => ?_⟩ Iff.rfl
  exact (State.input_userAnswers h.1).mp h.2

theorem declined_cons : Declined c ((e, s) :: tr) ↔
    (callMachine.last tr).call = some c ∧ (callMachine.last tr).core.input e = .userDeclines ∨
      Declined c tr := by
  refine or_congr ⟨fun h => ⟨h.1, (State.input_userDeclines h.1).mpr h⟩, fun h => ?_⟩ Iff.rfl
  exact (State.input_userDeclines h.1).mp h.2

theorem everConnected_cons :
    EverConnected c ((e, s) :: tr) ↔ (s.calls.get c).state = .connected ∨ EverConnected c tr :=
  Iff.rfl

theorem Session.WellFormed.not_current {S : Session} (hS : S.WellFormed)
    (hc : c ∈ S.unplaced ∨ S.calls.next ≤ c) : S.call ≠ some c := fun hcall =>
  hc.elim (fun hc => hS.current_not_unplaced hcall hc rfl)
    fun hle => Nat.not_le.mpr (hS.allocated c hcall) hle

/-- Reports of missed calls are about calls that are not current. -/
theorem Session.LogStep.missed_current {S S' : Session} {i : Input} (h : S.LogStep i S' c)
    (hS : S.WellFormed) (hc : S'.call = some c) : S'.missed.count c = S.missed.count c := by
  cases h with
  | same h => exact h.missed
  | turnedAway hd _ _ hcall =>
    exact absurd (hcall.symm.trans hc) (hS.not_current (.inr (Nat.le_of_eq hd.symm)))
  | missed _ _ _ _ _ hcall => exact nomatch hcall.symm.trans hc
  | placed _ _ hmissed | connected _ _ _ _ hmissed | answered _ _ _ _ _ hmissed => rw [hmissed]

/-- What a step means for the log of the call `c`. -/
theorem logStep_of_step (hrun : callMachine.Run tr) (hinv : LogInvariant tr)
    (hstep : callMachine.step (callMachine.last tr) e = some s) (c : CallRef) :
    (callMachine.last tr).core.LogStep ((callMachine.last tr).core.input e) s.core c :=
  (turn_of_run hrun hstep).logTurn.of hinv.owns c

theorem fresh_of_step (hrun : callMachine.Run tr) (hinv : LogInvariant tr)
    (hstep : callMachine.step (callMachine.last tr) e = some s)
    (hc : c ∈ s.unplaced ∨ s.calls.next ≤ c) :
    recordsOf s.records c = [] ∧ s.reportedMissed.count c = 0 ∧ ¬ Answered c ((e, s) :: tr) ∧
      ¬ Declined c ((e, s) :: tr) ∧ ¬ EverConnected c ((e, s) :: tr) := by
  have ht := turn_of_run hrun hstep
  have hwf := wellFormed_of_run hrun
  have hbefore := ht.not_placed hc
  have hne : (callMachine.last tr).call ≠ some c := hwf.not_current hbefore
  have hne' : s.call ≠ some c := (ht.wellFormed hwf).not_current hc
  obtain ⟨hrecords, hmissed, hanswered, hdeclined, hever⟩ := hinv.fresh c hbefore
  have hlog : recordsOf s.records c = [] ∧ s.reportedMissed.count c = 0 := by
    cases logStep_of_step hrun hinv hstep c with
    | same h => exact ⟨h.records.trans hrecords, h.missed.trans hmissed⟩
    | placed _ _ _ hcall => exact absurd hcall hne'
    | turnedAway hd _ _ _ _ _ hunplaced hnext =>
      exfalso
      rcases hc with hc | hle
      · have hlt := (hwf.unplaced c (hunplaced ▸ hc)).1
        exact Nat.lt_irrefl _ (Nat.lt_of_lt_of_eq hlt hd.symm)
      · exact Nat.not_succ_le_self _ (Nat.le_trans (Nat.le_of_eq hnext.symm)
          (Nat.le_trans hle (Nat.le_of_eq hd)))
    | connected hcall | answered hcall | missed hcall => exact absurd hcall hne
  refine ⟨hlog.1, hlog.2, ?_, ?_, ?_⟩
  · rw [answered_cons]
    exact not_or_intro (fun h => hne h.1) hanswered
  · rw [declined_cons]
    exact not_or_intro (fun h => hne h.1) hdeclined
  · rw [everConnected_cons]
    refine not_or_intro (fun h => ?_) hever
    rcases ht.state_connected h with h | h
    · exact hever (.of_last h)
    · exact hne h.1

theorem current_of_step (hrun : callMachine.Run tr) (hinv : LogInvariant tr)
    (hstep : callMachine.step (callMachine.last tr) e = some s) (hc : s.call = some c) :
    ¬ Declined c ((e, s) :: tr) ∧ s.reportedMissed.count c = 0 := by
  have ht := turn_of_run hrun hstep
  have hwf := wellFormed_of_run hrun
  have hbefore : ¬ Declined c tr ∧ (callMachine.last tr).reportedMissed.count c = 0 := by
    rcases ht.begins hwf hc with hcall | ⟨-, ⟨hplaced, -⟩ | ⟨hnext, -⟩⟩
    · exact hinv.current c hcall
    · have hfresh := hinv.fresh c (.inl hplaced)
      exact ⟨hfresh.2.2.2.1, hfresh.2.1⟩
    · have hfresh := hinv.fresh c (.inr (Nat.le_of_eq hnext.symm))
      exact ⟨hfresh.2.2.2.1, hfresh.2.1⟩
  refine ⟨?_, ((logStep_of_step hrun hinv hstep c).missed_current hwf hc).trans hbefore.2⟩
  rw [declined_cons]
  refine not_or_intro (fun h => ?_) hbefore.1
  exact nomatch (ht.call_eq_none (by simp [h.2])).symm.trans hc

theorem unanswered_of_step (hrun : callMachine.Run tr) (hinv : LogInvariant tr)
    (hstep : callMachine.step (callMachine.last tr) e = some s) (hc : s.call = some c)
    (hdirection : (s.calls.get c).direction = .incoming) (hanswered : ¬ Answered c ((e, s) :: tr)) :
    recordsOf s.records c = [] := by
  have ht := turn_of_run hrun hstep
  have hwf := wellFormed_of_run hrun
  rw [answered_cons, not_or] at hanswered
  have hbefore : recordsOf (callMachine.last tr).records c = [] := by
    rcases ht.begins hwf hc with hcall | ⟨-, ⟨hplaced, -⟩ | ⟨hnext, -⟩⟩
    · refine hinv.unanswered c hcall ?_ hanswered.2
      exact (direction_of_step hrun hstep (hwf.allocated c hcall)).symm.trans hdirection
    · exact (hinv.fresh c (.inl hplaced)).1
    · exact (hinv.fresh c (.inr (Nat.le_of_eq hnext.symm))).1
  cases logStep_of_step hrun hinv hstep c with
  | same h => exact h.records.trans hbefore
  | placed hplaced =>
    obtain ⟨hlt, -, number, id, hcall⟩ := hwf.unplaced c hplaced
    have := (direction_of_step hrun hstep hlt).symm.trans hdirection
    rw [show (callMachine.last tr).calls.get c = _ from hcall] at this
    exact nomatch this
  | turnedAway hd _ _ hcall =>
    exact absurd (hcall.symm.trans hc) (hwf.not_current (.inr (Nat.le_of_eq hd.symm)))
  | connected _ _ _ hrecords =>
    rw [show s.records = _ from hrecords, Session.recordsOf_complete]
    exact hbefore
  | answered hcall hi => exact absurd ⟨hcall, hi⟩ hanswered.1
  | missed _ _ _ _ _ hcall => exact nomatch hcall.symm.trans hc

theorem answered_of_step (hrun : callMachine.Run tr) (hinv : LogInvariant tr)
    (hstep : callMachine.step (callMachine.last tr) e = some s) (hc : s.call = some c)
    (hdirection : (s.calls.get c).direction = .incoming) (hanswered : Answered c ((e, s) :: tr)) :
    (s.calls.get c).state = .connected ∧ s.peerConnectionClient ≠ none := by
  have ht := turn_of_run hrun hstep
  have hwf := wellFormed_of_run hrun
  have hkeeps (hcall : (callMachine.last tr).call = some c) := ht.keeps hwf hcall hc
  rcases answered_cons.mp hanswered with ⟨hcall, hinput⟩ | hanswered
  · cases logStep_of_step hrun hinv hstep c with
    | same _ _ _ hanswers => exact nomatch (hanswers hcall hinput).2.symm.trans hc
    | placed hplaced => exact absurd hcall (hwf.not_current (.inl hplaced))
    | turnedAway hd => exact absurd hcall (hwf.not_current (.inr (Nat.le_of_eq hd.symm)))
    | connected _ hi => exact nomatch hi.symm.trans hinput
    | answered _ _ hclient _ _ _ hstate => exact ⟨hstate, (hkeeps hcall).client hclient⟩
    | missed _ _ hi => exact nomatch hi.symm.trans hinput
  · rcases ht.begins hwf hc with hcall | ⟨-, ⟨hplaced, -⟩ | ⟨hnext, -⟩⟩
    · have hdirection' :=
        (direction_of_step hrun hstep (hwf.allocated c hcall)).symm.trans hdirection
      obtain ⟨hstate, hclient⟩ := hinv.answered c hcall hdirection' hanswered
      exact ⟨(hkeeps hcall).state hstate, (hkeeps hcall).client hclient⟩
    · exact absurd hanswered (hinv.fresh c (.inl hplaced)).2.2.1
    · exact absurd hanswered (hinv.fresh c (.inr (Nat.le_of_eq hnext.symm))).2.2.1

theorem placed_of_step (hrun : callMachine.Run tr) (hinv : LogInvariant tr)
    (hstep : callMachine.step (callMachine.last tr) e = some s) (hc : s.call = some c)
    (hdirection : (s.calls.get c).direction = .outgoing) : (s.calls.get c).callRecord ≠ none := by
  have ht := turn_of_run hrun hstep
  have hwf := wellFormed_of_run hrun
  rcases ht.begins hwf hc with hcall | ⟨-, ⟨-, hrecord⟩ | ⟨-, hincoming⟩⟩
  · refine (ht.keeps hwf hcall hc).callRecord (hinv.placed c hcall ?_)
    exact (direction_of_step hrun hstep (hwf.allocated c hcall)).symm.trans hdirection
  · exact hrecord
  · exact nomatch hincoming.symm.trans hdirection

theorem logInvariant_of_run (h : callMachine.Run tr) : LogInvariant tr := by
  refine h.invariant ?_ fun tr e s hrun hinv hstep => ?_
  · exact
      { owns := fun c r hr => nomatch hr
        fresh := fun c _ => ⟨rfl, rfl, id, id, nofun⟩
        current := fun c hc => nomatch hc
        unanswered := fun c hc => nomatch hc
        answered := fun c hc => nomatch hc
        placed := fun c hc => nomatch hc }
  · exact
      { owns := (turn_of_run hrun hstep).logTurn.ownRecords hinv.owns
        fresh := fun c => fresh_of_step hrun hinv hstep
        current := fun c => current_of_step hrun hinv hstep
        unanswered := fun c => unanswered_of_step hrun hinv hstep
        answered := fun c => answered_of_step hrun hinv hstep
        placed := fun c => placed_of_step hrun hinv hstep }

/-! ### Guarded steps -/

theorem eq_of_length_le_one {α : Type*} {l : List α} {a b : α} (h : l.length ≤ 1) (ha : a ∈ l)
    (hb : b ∈ l) : a = b := by
  match l, h with
  | [x], _ => exact (List.mem_singleton.mp ha).trans (List.mem_singleton.mp hb).symm

theorem LogInvariant.callRecord_eq_none (hinv : LogInvariant tr)
    (h : recordsOf (callMachine.last tr).records c = []) :
    ((callMachine.last tr).calls.get c).callRecord = none := by
  rw [Option.eq_none_iff_forall_ne_some]
  intro r hr
  have hmem : r ∈ recordsOf (callMachine.last tr).records c := hinv.owns c r hr
  rw [h] at hmem
  exact nomatch hmem

/-- A call that a guarded step reports missed is an incoming one, and was not answered. -/
theorem LogInvariant.missed (hinv : LogInvariant tr) (hG : KeepsCallLog tr e)
    (hcall : (callMachine.last tr).call = some c)
    (hinput : (callMachine.last tr).core.input e = .remoteHangup)
    (hstate : ((callMachine.last tr).calls.get c).state.isMissedByHangup = true) :
    ((callMachine.last tr).calls.get c).direction = .incoming ∧ ¬ Answered c tr := by
  have hincoming : ((callMachine.last tr).calls.get c).direction = .incoming := by
    cases hdirection : ((callMachine.last tr).calls.get c).direction with
    | incoming => rfl
    | outgoing => exact nomatch hstate.symm.trans ((hG.outgoing c hcall hdirection).2 hinput)
  refine ⟨hincoming, fun hanswered => ?_⟩
  rw [(hinv.answered c hcall hincoming hanswered).1] at hstate
  exact nomatch hstate

theorem once_of_step (hrun : callMachine.Run tr) (hP : CallLogAccurate tr)
    (hG : KeepsCallLog tr e) (hstep : callMachine.step (callMachine.last tr) e = some s)
    (c : CallRef) : (recordsOf s.records c).length ≤ 1 := by
  have hinv := logInvariant_of_run hrun
  have hadds {t : RPRecentCallType} (h : (callMachine.last tr).core.Adds s.core c t)
      (hnone : recordsOf (callMachine.last tr).records c = []) :
      (recordsOf s.records c).length ≤ 1 := by
    rw [show recordsOf s.records c = _ from h.records,
      show recordsOf (callMachine.last tr).core.records c = [] from hnone]
    exact Nat.le_refl _
  cases logStep_of_step hrun hinv hstep c with
  | same h => exact Nat.le_trans (Nat.le_of_eq (congrArg List.length h.records)) (hP.once c)
  | placed hplaced h => exact hadds h (hinv.fresh c (.inl hplaced)).1
  | turnedAway hd h => exact hadds h (hinv.fresh c (.inr (Nat.le_of_eq hd.symm))).1
  | connected _ _ _ hrecords =>
    rw [show s.records = _ from hrecords, Session.recordsOf_complete]
    exact hP.once c
  | answered hcall hinput hclient _ h =>
    have hanswers := (State.input_userAnswers hcall).mp hinput
    refine hadds h ?_
    cases hdirection : ((callMachine.last tr).calls.get c).direction with
    | incoming =>
      exact hinv.unanswered c hcall hdirection fun h => hG.answered c hcall hdirection h hanswers
    | outgoing => exact absurd ((hG.outgoing c hcall hdirection).1 hanswers) hclient
  | missed hcall hstate hinput h =>
    obtain ⟨hdirection, hanswered⟩ := hinv.missed hG hcall hinput hstate
    have hnone := hinv.unanswered c hcall hdirection hanswered
    exact hadds (h (hinv.callRecord_eq_none hnone)) hnone

theorem outgoing_of_step (hrun : callMachine.Run tr) (hP : CallLogAccurate tr)
    (hG : KeepsCallLog tr e) (hstep : callMachine.step (callMachine.last tr) e = some s)
    (hdirection : (s.calls.get c).direction = .outgoing) {r : RecordRef}
    (hr : r ∈ recordsOf s.records c) :
    (EverConnected c ((e, s) :: tr) → (s.records.get r).callType = .outgoing) ∧
      (¬ EverConnected c ((e, s) :: tr) → (s.records.get r).callType = .outgoingIncomplete) := by
  have hinv := logInvariant_of_run hrun
  have hwf := wellFormed_of_run hrun
  have hbefore (hr : recordsOf (callMachine.last tr).records c ≠ []) :
      ((callMachine.last tr).calls.get c).direction = .outgoing := by
    refine (direction_of_step hrun hstep (Nat.lt_of_not_le fun hle => hr ?_)).symm.trans hdirection
    exact (hinv.fresh c (.inr hle)).1
  have hcurrent (hcall : (callMachine.last tr).call = some c) :
      ((callMachine.last tr).calls.get c).direction = .outgoing :=
    (direction_of_step hrun hstep (hwf.allocated c hcall)).symm.trans hdirection
  cases logStep_of_step hrun hinv hstep c with
  | same h hstate =>
    have hmem : r ∈ recordsOf (callMachine.last tr).records c := h.records ▸ hr
    have hever : EverConnected c ((e, s) :: tr) ↔ EverConnected c tr :=
      or_iff_right_of_imp fun hconnected => .of_last (hstate hconnected)
    rw [hever, show (s.records.get r).callType = _ from h.callType r hmem]
    exact hP.outgoing c (hbefore (List.ne_nil_of_mem hmem)) r hmem
  | placed hplaced h _ _ hstate =>
    obtain ⟨hnone, -, -, -, hever⟩ := hinv.fresh c (.inl hplaced)
    rw [show recordsOf s.records c = _ from h.records,
      show recordsOf (callMachine.last tr).core.records c = [] from hnone] at hr
    obtain rfl := List.mem_singleton.mp hr
    exact ⟨fun h => h.elim (absurd · hstate) (absurd · hever), fun _ => h.callType⟩
  | turnedAway _ _ _ _ hincoming => exact nomatch hincoming.symm.trans hdirection
  | connected hcall _ _ hrecords _ hstate =>
    rw [show s.records = _ from hrecords, Session.recordsOf_complete] at hr
    obtain ⟨r', hr'⟩ := Option.ne_none_iff_exists'.mp (hinv.placed c hcall (hcurrent hcall))
    -- the call has one record, the one that connecting completes
    obtain rfl : r = r' := eq_of_length_le_one (hP.once c) hr (hinv.owns c r' hr')
    have htype := hP.outgoing c (hcurrent hcall) r hr
    rw [show s.records = _ from hrecords, Session.complete_get]
    refine ⟨fun _ => ?_, fun h => absurd (.inl hstate) h⟩
    simp only [State.core_calls, hr', if_true]
    by_cases hever : EverConnected c tr
    · rw [State.core_records, htype.1 hever]
      rfl
    · rw [State.core_records, htype.2 hever]
      rfl
  | answered hcall hinput hclient =>
    exact absurd ((hG.outgoing c hcall (hcurrent hcall)).1
      ((State.input_userAnswers hcall).mp hinput)) hclient
  | missed hcall hstate hinput =>
    exact nomatch hstate.symm.trans ((hG.outgoing c hcall (hcurrent hcall)).2 hinput)

theorem incoming_of_step (hrun : callMachine.Run tr) (hP : CallLogAccurate tr)
    (hG : KeepsCallLog tr e) (hstep : callMachine.step (callMachine.last tr) e = some s)
    (hdirection : (s.calls.get c).direction = .incoming) (hanswered : Answered c ((e, s) :: tr)) :
    ∃ r ∈ recordsOf s.records c, (s.records.get r).callType = .incoming := by
  have hinv := logInvariant_of_run hrun
  have hwf := wellFormed_of_run hrun
  rw [answered_cons] at hanswered
  have hallocated : c < (callMachine.last tr).calls.next :=
    hanswered.elim (fun h => hwf.allocated c h.1) fun h =>
      Nat.lt_of_not_le fun hle => (hinv.fresh c (.inr hle)).2.2.1 h
  have hdirection' := (direction_of_step hrun hstep hallocated).symm.trans hdirection
  cases logStep_of_step hrun hinv hstep c with
  | same h _ _ hanswers =>
    have hbefore : Answered c tr := by
      refine hanswered.resolve_left ?_
      rintro ⟨hcall, hinput⟩
      have huser := (State.input_userAnswers hcall).mp hinput
      by_cases hanswered : Answered c tr
      · exact hG.answered c hcall hdirection' hanswered huser
      · exact (hG.unanswered c hcall hdirection' hanswered).2.1 (.inr huser)
          (hanswers hcall hinput).1
    obtain ⟨r, hr, htype⟩ := hP.answered c hdirection' hbefore
    exact ⟨r, h.records ▸ hr, (h.callType r hr).trans htype⟩
  | placed hplaced =>
    exact (hanswered.elim (fun h => hwf.not_current (.inl hplaced) h.1)
      (hinv.fresh c (.inl hplaced)).2.2.1).elim
  | turnedAway hd => exact absurd hd (Nat.ne_of_lt hallocated)
  | connected hcall hi _ hrecords =>
    have hbefore := hanswered.resolve_left fun h => by simp [hi] at h
    obtain ⟨r, hr, htype⟩ := hP.answered c hdirection' hbefore
    refine ⟨r, ?_, ?_⟩
    · rw [show s.records = _ from hrecords, Session.recordsOf_complete]
      exact hr
    · rw [show s.records = _ from hrecords, Session.complete_get]
      simp [htype, Session.completed]
  | answered _ _ _ _ h =>
    exact ⟨_, by rw [show recordsOf s.records c = _ from h.records]; simp, h.callType⟩
  | missed hcall hstate hinput =>
    have hbefore := hanswered.resolve_left fun h => by simp [hinput] at h
    exact absurd hbefore (hinv.missed hG hcall hinput hstate).2

theorem missed_of_step (hrun : callMachine.Run tr) (hP : CallLogAccurate tr)
    (hG : KeepsCallLog tr e) (hstep : callMachine.step (callMachine.last tr) e = some s)
    (hdirection : (s.calls.get c).direction = .incoming) (hc : c < s.calls.next)
    (hcall' : s.call ≠ some c) (hanswered : ¬ Answered c ((e, s) :: tr))
    (hdeclined : ¬ Declined c ((e, s) :: tr)) :
    (∃ r, recordsOf s.records c = [r] ∧ (s.records.get r).callType = .missed) ∧
      s.reportedMissed.count c = 1 := by
  have hinv := logInvariant_of_run hrun
  have hwf := wellFormed_of_run hrun
  rw [answered_cons, not_or] at hanswered
  rw [declined_cons, not_or] at hdeclined
  have hadds (h : (callMachine.last tr).core.Adds s.core c .missed)
      (hmissed : s.core.missed = (callMachine.last tr).core.missed ++ [c])
      (hnone : recordsOf (callMachine.last tr).records c = [])
      (hcount : (callMachine.last tr).reportedMissed.count c = 0) :
      (∃ r, recordsOf s.records c = [r] ∧ (s.records.get r).callType = .missed) ∧
        s.reportedMissed.count c = 1 := by
    refine ⟨⟨_, ?_, h.callType⟩, ?_⟩
    · rw [show recordsOf s.records c = _ from h.records,
        show recordsOf (callMachine.last tr).core.records c = [] from hnone]
      rfl
    · rw [show s.reportedMissed = _ from hmissed, List.count_append,
        show List.count c (callMachine.last tr).core.missed = 0 from hcount]
      simp
  cases logStep_of_step hrun hinv hstep c with
  | same h _ _ hanswers hhangup hnew =>
    have hallocated : c < (callMachine.last tr).calls.next := Nat.lt_of_not_le fun hle =>
      (hnew hle hc).elim hcall' fun houtgoing => nomatch houtgoing.symm.trans hdirection
    have hdirection' := (direction_of_step hrun hstep hallocated).symm.trans hdirection
    have hne : (callMachine.last tr).call ≠ some c := by
      intro hcall
      obtain ⟨hfails, hclient, hhangup'⟩ := hG.unanswered c hcall hdirection' hanswered.2
      rcases (turn_of_run hrun hstep).ends hcall hcall' with hi | ⟨hnone, hi | hi⟩
      · by_cases hinput : (callMachine.last tr).core.input e = .remoteHangup
        · exact nomatch (hhangup' hinput).symm.trans (hhangup hcall hinput)
        · have hi : (callMachine.last tr).core.input e ∈
              [Input.failure, .remoteBusy, .reset, .userDeclines, .remoteHangup] := hi
          simp only [List.mem_cons, List.not_mem_nil, or_false, not_or] at hi hfails
          grind
      · exact hclient (.inl hi) hnone
      · exact hanswered.1 ⟨hcall, hi⟩
    obtain ⟨⟨r, hr, htype⟩, hcount⟩ :=
      hP.missed c hdirection' hallocated hne hanswered.2 hdeclined.2
    refine ⟨⟨r, h.records.trans hr, ?_⟩, h.missed.trans hcount⟩
    exact (h.callType r (by simp [hr])).trans htype
  | placed _ _ _ hcall | connected _ _ hcall | answered _ _ _ hcall => exact absurd hcall hcall'
  | turnedAway hd h hmissed =>
    obtain ⟨hnone, hcount, -⟩ := hinv.fresh c (.inr (Nat.le_of_eq hd.symm))
    exact hadds h hmissed hnone hcount
  | missed hcall hstate hinput h hmissed =>
    obtain ⟨hdirection', hbefore⟩ := hinv.missed hG hcall hinput hstate
    have hnone := hinv.unanswered c hcall hdirection' hbefore
    exact hadds (h (hinv.callRecord_eq_none hnone)) hmissed hnone (hinv.current c hcall).2

theorem reported_of_step (hrun : callMachine.Run tr) (hP : CallLogAccurate tr)
    (hG : KeepsCallLog tr e) (hstep : callMachine.step (callMachine.last tr) e = some s)
    (hc : c ∈ s.reportedMissed) :
    (s.calls.get c).direction = .incoming ∧ ¬ Answered c ((e, s) :: tr) ∧
      ¬ Declined c ((e, s) :: tr) := by
  have hinv := logInvariant_of_run hrun
  have hwf := wellFormed_of_run hrun
  rw [answered_cons, declined_cons]
  -- what was reported before is about a call of the past
  have hpast (hmem : c ∈ (callMachine.last tr).reportedMissed) :
      (s.calls.get c).direction = .incoming ∧ (callMachine.last tr).call ≠ some c ∧
        ¬ Answered c tr ∧ ¬ Declined c tr := by
    have hcount := List.count_pos_iff.mpr hmem
    have hallocated : c < (callMachine.last tr).calls.next := Nat.lt_of_not_le fun hle =>
      Nat.ne_of_gt hcount (hinv.fresh c (.inr hle)).2.1
    obtain ⟨hdirection, hrest⟩ := hP.reported c hmem
    exact ⟨(direction_of_step hrun hstep hallocated).trans hdirection,
      fun hcall => Nat.ne_of_gt hcount (hinv.current c hcall).2, hrest⟩
  have hsame (hcount : s.reportedMissed.count c = (callMachine.last tr).reportedMissed.count c) :
      c ∈ (callMachine.last tr).reportedMissed :=
    List.count_pos_iff.mp (hcount ▸ List.count_pos_iff.mpr hc)
  cases logStep_of_step hrun hinv hstep c with
  | same h =>
    obtain ⟨hdirection, hne, hanswered, hdeclined⟩ := hpast (hsame h.missed)
    exact ⟨hdirection, not_or_intro (fun h => hne h.1) hanswered,
      not_or_intro (fun h => hne h.1) hdeclined⟩
  | placed hplaced _ hmissed =>
    have hcount := List.count_pos_iff.mpr (hsame (congrArg _ hmissed))
    exact absurd (hinv.fresh c (.inl hplaced)).2.1 (Nat.ne_of_gt hcount)
  | turnedAway hd _ _ _ hdirection =>
    have hfresh : c ∈ (callMachine.last tr).unplaced ∨ (callMachine.last tr).calls.next ≤ c :=
      .inr (Nat.le_of_eq hd.symm)
    obtain ⟨-, -, hanswered, hdeclined, -⟩ := hinv.fresh c hfresh
    have hne := hwf.not_current hfresh
    exact ⟨hdirection, not_or_intro (fun h => hne h.1) hanswered,
      not_or_intro (fun h => hne h.1) hdeclined⟩
  | connected hcall _ _ _ hmissed | answered hcall _ _ _ _ hmissed =>
    exact absurd hcall (hpast (hsame (congrArg _ hmissed))).2.1
  | missed hcall hstate hinput =>
    obtain ⟨hdirection, hanswered⟩ := hinv.missed hG hcall hinput hstate
    refine ⟨?_, not_or_intro (fun h => ?_) hanswered,
      not_or_intro (fun h => ?_) (hinv.current c hcall).1⟩
    · exact (direction_of_step hrun hstep (hwf.allocated c hcall)).trans hdirection
    · exact nomatch hinput.symm.trans h.2
    · exact nomatch hinput.symm.trans h.2

/-! ### Unguarded steps -/

theorem outgoing_of_accurate (hrun : callMachine.Run tr)
    (hstep : callMachine.step (callMachine.last tr) e = some s)
    (hP' : CallLogAccurate ((e, s) :: tr)) (hcall : (callMachine.last tr).call = some c)
    (hdirection : ((callMachine.last tr).calls.get c).direction = .outgoing) :
    (UserAnswers c (callMachine.last tr) e → (callMachine.last tr).peerConnectionClient = none) ∧
      ((callMachine.last tr).core.input e = .remoteHangup →
        ((callMachine.last tr).calls.get c).state.isMissedByHangup = false) := by
  have hinv := logInvariant_of_run hrun
  have hwf := wellFormed_of_run hrun
  have hdirection' := (direction_of_step hrun hstep (hwf.allocated c hcall)).trans hdirection
  have hfresh := hwf.not_current (c := c)
  constructor
  · intro hanswers
    have hinput := (State.input_userAnswers hcall).mpr hanswers
    cases logStep_of_step hrun hinv hstep c with
    | same _ _ _ hanswers => exact (hanswers hcall hinput).1
    | placed hplaced => exact absurd hcall (hfresh (.inl hplaced))
    | turnedAway hd => exact absurd hcall (hfresh (.inr (Nat.le_of_eq hd.symm)))
    | connected _ hi | missed _ _ hi => exact nomatch hi.symm.trans hinput
    | answered _ _ _ _ h =>
      -- the call had a record from the time it was placed
      obtain ⟨r, hr⟩ := Option.ne_none_iff_exists'.mp (hinv.placed c hcall hdirection)
      exact absurd (hP'.once c) (h.not_once (hinv.owns c r hr))
  · intro hinput
    cases logStep_of_step hrun hinv hstep c with
    | same _ _ _ _ hhangup => exact hhangup hcall hinput
    | placed hplaced => exact absurd hcall (hfresh (.inl hplaced))
    | turnedAway hd => exact absurd hcall (hfresh (.inr (Nat.le_of_eq hd.symm)))
    | connected _ hi | answered _ hi => exact nomatch hi.symm.trans hinput
    | missed _ _ _ _ hmissed =>
      have hmem : c ∈ s.core.missed := hmissed ▸ List.mem_append_right _ (List.mem_singleton_self c)
      exact nomatch (hP'.reported c hmem).1.symm.trans hdirection'

theorem answered_of_accurate (hrun : callMachine.Run tr) (hP : CallLogAccurate tr)
    (hstep : callMachine.step (callMachine.last tr) e = some s)
    (hP' : CallLogAccurate ((e, s) :: tr)) (hcall : (callMachine.last tr).call = some c)
    (hdirection : ((callMachine.last tr).calls.get c).direction = .incoming)
    (hanswered : Answered c tr) : ¬ UserAnswers c (callMachine.last tr) e := by
  intro hanswers
  have hinv := logInvariant_of_run hrun
  have hfresh := (wellFormed_of_run hrun).not_current (c := c)
  have hinput := (State.input_userAnswers hcall).mpr hanswers
  cases logStep_of_step hrun hinv hstep c with
  | same _ _ _ hanswers =>
    exact (hinv.answered c hcall hdirection hanswered).2 (hanswers hcall hinput).1
  | placed hplaced => exact absurd hcall (hfresh (.inl hplaced))
  | turnedAway hd => exact absurd hcall (hfresh (.inr (Nat.le_of_eq hd.symm)))
  | connected _ hi | missed _ _ hi => exact nomatch hi.symm.trans hinput
  | answered _ _ _ _ h =>
    obtain ⟨r, hr, -⟩ := hP.answered c hdirection hanswered
    exact h.not_once hr (hP'.once c)

theorem unanswered_of_accurate (hrun : callMachine.Run tr)
    (hstep : callMachine.step (callMachine.last tr) e = some s)
    (hP' : CallLogAccurate ((e, s) :: tr)) (hcall : (callMachine.last tr).call = some c)
    (hdirection : ((callMachine.last tr).calls.get c).direction = .incoming)
    (hanswered : ¬ Answered c tr) :
    (callMachine.last tr).core.input e ∉ [Input.failure, .remoteBusy, .reset] ∧
      ((callMachine.last tr).core.input e = .answer ∨ UserAnswers c (callMachine.last tr) e →
        (callMachine.last tr).peerConnectionClient ≠ none) ∧
      ((callMachine.last tr).core.input e = .remoteHangup →
        ((callMachine.last tr).calls.get c).state.isMissedByHangup = true) := by
  have hinv := logInvariant_of_run hrun
  have hwf := wellFormed_of_run hrun
  have ht := turn_of_run hrun hstep
  have hallocated := hwf.allocated c hcall
  have hdirection' := (direction_of_step hrun hstep hallocated).trans hdirection
  have hfresh := hwf.not_current (c := c)
  have hnone : recordsOf (callMachine.last tr).core.records c = [] :=
    hinv.unanswered c hcall hdirection hanswered
  -- a step that just ends the call adds no record for it
  have hended (hcall' : s.call = none)
      (hi : (callMachine.last tr).core.input e ≠ .userAnswers ∧
        (callMachine.last tr).core.input e ≠ .userDeclines)
      (hhangup : (callMachine.last tr).core.input e = .remoteHangup →
        ((callMachine.last tr).calls.get c).state.isMissedByHangup = false) : False := by
    have hanswered' : ¬ Answered c ((e, s) :: tr) := by
      rw [answered_cons]
      exact not_or_intro (fun h => hi.1 h.2) hanswered
    have hdeclined' : ¬ Declined c ((e, s) :: tr) := by
      rw [declined_cons]
      exact not_or_intro (fun h => hi.2 h.2) (hinv.current c hcall).1
    obtain ⟨⟨r, hr, -⟩, -⟩ := hP'.missed c hdirection' (Nat.lt_of_lt_of_le hallocated ht.next_le)
      (by simp [hcall']) hanswered' hdeclined'
    cases logStep_of_step hrun hinv hstep c with
    | same h => exact nomatch (h.records.trans hnone).symm.trans hr
    | placed hplaced => exact hfresh (.inl hplaced) hcall
    | turnedAway hd => exact hfresh (.inr (Nat.le_of_eq hd.symm)) hcall
    | connected _ _ hcurrent => exact nomatch hcall'.symm.trans hcurrent
    | answered _ hinput => exact hi.1 hinput
    | missed _ hstate hinput => exact nomatch hstate.symm.trans (hhangup hinput)
  refine ⟨fun hinput => ?_, ?_, fun hinput => ?_⟩
  · refine hended (ht.call_eq_none ?_) ?_ ?_ <;> simp at hinput <;> grind
  · rintro (hinput | hanswers) hclient
    · rw [hinput] at ht hended
      rcases ht.answer_cases with ⟨hclient', -⟩ | ⟨-, hcall', -⟩
      · exact hclient' hclient
      · exact hended hcall' ⟨nofun, nofun⟩ nofun
    · have hinput := (State.input_userAnswers hcall).mpr hanswers
      cases logStep_of_step hrun hinv hstep c with
      | same h =>
        obtain ⟨r, hr, -⟩ := hP'.answered c hdirection' (.inl hanswers)
        rw [Machine.last_cons, show recordsOf s.records c = [] from h.records.trans hnone] at hr
        exact nomatch hr
      | placed hplaced => exact hfresh (.inl hplaced) hcall
      | turnedAway hd => exact hfresh (.inr (Nat.le_of_eq hd.symm)) hcall
      | connected _ hi | missed _ _ hi => exact nomatch hi.symm.trans hinput
      | answered _ _ hclient' => exact hclient' hclient
  · by_contra hstate
    have hcall' := ht.call_eq_none (by simp [hinput])
    exact hended hcall' (by simp [hinput]) fun _ => by simpa using hstate

theorem callLogAccurate_iff (h : callMachine.Run tr) :
    Machine.Always CallLogAccurate tr ↔ Machine.Guarded KeepsCallLog tr := by
  refine h.always_iff_guarded ?_ fun tr e s hrun hP hstep => ⟨fun hP' => ?_, fun hG => ?_⟩
  · exact
      { once := fun c => Nat.zero_le _
        outgoing := fun c _ r hr => nomatch hr
        answered := fun c _ h => h.elim
        missed := fun c _ hc => absurd hc (Nat.not_lt_zero c)
        reported := fun c hc => nomatch hc }
  · exact
      { outgoing := fun c => outgoing_of_accurate hrun hstep hP'
        answered := fun c => answered_of_accurate hrun hP hstep hP'
        unanswered := fun c => unanswered_of_accurate hrun hstep hP' }
  · exact
      { once := once_of_step hrun hP hG hstep
        outgoing := fun c hc r => outgoing_of_step hrun hP hG hstep hc
        answered := fun c => incoming_of_step hrun hP hG hstep
        missed := fun c => missed_of_step hrun hP hG hstep
        reported := fun c => reported_of_step hrun hP hG hstep }

end

/-- The callee declines an outgoing call, which the caller then is told it missed. -/
def declinedByCallee : List Event :=
  [.user (.newOutgoingCall "+15550001" 7), .user (.handleOutgoingCall 0),
    .received (.hangup 7) "+15550001"]

theorem callLogAccurate_counterexample :
    ∃ tr, callMachine.exec declinedByCallee = some tr ∧ callMachine.Run tr ∧
      ((callMachine.last tr).calls.get 0).direction = .outgoing ∧
      (callMachine.last tr).reportedMissed = [0] ∧ ¬ Machine.Always CallLogAccurate tr := by
  have hexec : (callMachine.exec declinedByCallee).map (fun tr =>
      (((callMachine.last tr).calls.get 0).direction, (callMachine.last tr).reportedMissed)) =
      some (.outgoing, [0]) := by rfl
  obtain ⟨tr, htr, hget⟩ := Option.map_eq_some_iff.mp hexec
  have hdirection := congrArg Prod.fst hget
  have hmissed : (callMachine.last tr).reportedMissed = [0] := congrArg Prod.snd hget
  refine ⟨tr, htr, Machine.run_of_exec htr, hdirection, hmissed, fun h => ?_⟩
  have hincoming := (h.last.reported 0 (by simp [hmissed])).1
  exact nomatch hincoming.symm.trans hdirection

theorem callLogAccurate_iff_of_declinedByCallee :
    ∃ tr, callMachine.exec declinedByCallee = some tr ∧
      (Machine.Always CallLogAccurate tr ↔ Machine.Guarded KeepsCallLog tr) := by
  have hexec : (callMachine.exec declinedByCallee).isSome := by rfl
  obtain ⟨tr, htr⟩ := Option.isSome_iff_exists.mp hexec
  exact ⟨tr, htr, callLogAccurate_iff (Machine.run_of_exec htr)⟩

end SignalIOS.Call
