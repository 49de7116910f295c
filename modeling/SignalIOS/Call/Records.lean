import SignalIOS.Call.Frame

/-! What turns do to the call log: the records of calls, and the calls reported as missed. -/
namespace SignalIOS.Call
open SignalIOS.Lib

namespace Session
variable {S S' : Session} {e : Event} {i : Input} {c : CallRef}

/-- Turns that neither write to the log nor connect a call. -/
structure LogSame (S : Session) (i : Input) (S' : Session) : Prop where
  records : S'.records = S.records
  missed : S'.missed = S.missed
  record : ∀ c, (S'.calls.get c).callRecord = (S.calls.get c).callRecord ∨
    c = S.calls.next ∧ (S'.calls.get c).callRecord = none
  state : ∀ c, (S'.calls.get c).state = .connected → (S.calls.get c).state = .connected
  accepted : i ≠ .accepted
  userAnswers : i = .userAnswers → S.client = none ∧ S'.call = none
  remoteHangup : ∀ c, S.call = some c → i = .remoteHangup →
    (S.calls.get c).state.isMissedByHangup = false
  new : ∀ c, S.calls.next ≤ c → c < S'.calls.next →
    S'.call = some c ∨ (S'.calls.get c).direction = .outgoing

/-- What a turn means for the call log. -/
inductive LogTurn (S : Session) (i : Input) (S' : Session) : Prop
  | same (h : S.LogSame i S')
  | placed {c : CallRef} {state : CallState} {setUp : SetUp} (hc : c ∈ S.unplaced)
    (hcall : S.call = none) (hi : i = .other) (hstate : state ≠ .connected)
    (hS' : S' = S.place c state setUp)
  | turnedAway (number : String) (id : UInt64) (hi : i = .other) (hS' : S' = S.turnAway number id)
  | connected {c : CallRef} {client : ClientRef} (hcall : S.call = some c)
    (hclient : S.client = some client) (hi : i = .accepted) (hS' : S' = S.connect c client)
  | answered {c : CallRef} {client : ClientRef} (hcall : S.call = some c)
    (hclient : S.client = some client) (hi : i = .userAnswers) (hS' : S' = S.answer c client)
  | missed {c : CallRef} (hcall : S.call = some c)
    (hstate : (S.calls.get c).state.isMissedByHangup = true) (hi : i = .remoteHangup)
    (hS' : S' = (S.miss c).finish c fun k => { k with state := .remoteHangup })

theorem Ending.logTurn (ht : S.Ending e i S') : S.LogTurn i S' := by
  have hsame (hrecords : S'.records = S.records) (hmissed : S'.missed = S.missed)
      (hrecord : ∀ c, (S'.calls.get c).callRecord = (S.calls.get c).callRecord)
      (haccepted : i ≠ .accepted) (hanswers : i = .userAnswers → S.client = none)
      (hhangup : ∀ c, S.call = some c → i = .remoteHangup →
        (S.calls.get c).state.isMissedByHangup = false) : S.LogTurn i S' :=
    .same ⟨hrecords, hmissed, fun c => .inl (hrecord c), fun c => ht.state_connected, haccepted,
      fun hi => ⟨hanswers hi, ht.quiet.call⟩, hhangup,
      fun c hle hlt => absurd hle (Nat.not_le.mpr (ht.next_calls ▸ hlt))⟩
  cases ht with
  | missed e hcall hstate => exact .missed hcall hstate rfl rfl
  | reset | cleared => exact hsame rfl rfl (clear_proj SignalCall.callRecord S fun _ => rfl) nofun nofun nofun
  | caughtCleared =>
    exact hsame rfl rfl (clear_proj SignalCall.callRecord (S.stage _ .caught) fun _ => rfl) nofun nofun nofun
  | localHangup | remoteBusy =>
    exact hsame rfl rfl (finish_proj SignalCall.callRecord S _ fun _ => by rfl) nofun nofun nofun
  | remoteHangup e hcall hstate =>
    refine hsame rfl rfl (finish_proj SignalCall.callRecord S _ fun _ => by rfl) nofun nofun fun c hc _ => ?_
    obtain rfl := Option.some.inj (hcall.symm.trans hc)
    exact hstate
  | failed e i error hcall hi =>
    refine hsame rfl rfl (finish_proj SignalCall.callRecord S _ fun _ => by rfl) ?_ (fun hanswers => ?_) ?_
    · rintro rfl
      simp at hi
    · subst hanswers
      exact (hi.resolve_left nofun).1
    · rintro c - rfl
      simp at hi
  | answerFailed =>
    exact hsame rfl rfl (finish_proj SignalCall.callRecord S.sendPending _ fun _ => by rfl) nofun nofun nofun
  | caughtFailed =>
    exact hsame rfl rfl (finish_proj SignalCall.callRecord (S.stage _ .caught) _ fun _ => by rfl)
      nofun nofun nofun

theorem Turn.logTurn (ht : S.Turn e i S') : S.LogTurn i S' := by
  have hsame (hrecords : S'.records = S.records) (hmissed : S'.missed = S.missed)
      (hrecord : ∀ c, (S'.calls.get c).callRecord = (S.calls.get c).callRecord ∨
        c = S.calls.next ∧ (S'.calls.get c).callRecord = none)
      (hi : i ≠ .accepted ∧ i ≠ .userAnswers ∧ i ≠ .remoteHangup)
      (hnew : S'.calls.next = S.calls.next ∨ S'.calls.next = S.calls.next + 1 ∧
        (S'.call = some S.calls.next ∨ (S'.calls.get S.calls.next).direction = .outgoing)) :
      S.LogTurn i S' :=
    .same
      { records := hrecords
        missed := hmissed
        record := hrecord
        state := fun c hc => (ht.state_connected hc).resolve_right fun h =>
          h.2.2.elim hi.1 hi.2.1
        accepted := hi.1
        userAnswers := fun h => absurd h hi.2.1
        remoteHangup := fun _ _ h => absurd h hi.2.2
        new := fun c hle hlt => by
          rcases hnew with hnext | ⟨hnext, hnew⟩
          · exact absurd hle (Nat.not_le.mpr (hnext ▸ hlt))
          · obtain rfl : c = S.calls.next :=
              Nat.le_antisymm (Nat.le_of_lt_succ (Nat.lt_of_lt_of_eq hlt hnext)) hle
            exact hnew }
  have halloc {k : SignalCall} (hk : k.callRecord = none) (c : CallRef) :
      ((S.calls.alloc k).get c).callRecord = (S.calls.get c).callRecord ∨
        c = S.calls.next ∧ ((S.calls.alloc k).get c).callRecord = none := by
    rw [Heap.get_alloc]
    split_ifs with hc
    · exact .inr ⟨hc, hk⟩
    · exact .inl rfl
  have hmodified {d : CallRef} {f : SignalCall → SignalCall} (hcalls : S'.calls = S.calls.modify d f)
      (hf : ∀ k, (f k).callRecord = k.callRecord) (c : CallRef) :
      (S'.calls.get c).callRecord = (S.calls.get c).callRecord ∨
        c = S.calls.next ∧ (S'.calls.get c).callRecord = none :=
    .inl (Heap.proj_of_eq_modify SignalCall.callRecord hcalls hf c)
  cases ht with
  | idle | madeOutgoing | madeIncoming | application | answerReceived | buffered | sent =>
    exact hsame rfl rfl (fun _ => .inl rfl) ⟨nofun, nofun, nofun⟩ (.inl rfl)
  | aside ht =>
    cases ht with
    | created =>
      exact hsame rfl rfl (halloc rfl) ⟨nofun, nofun, nofun⟩
        (.inr ⟨rfl, .inr (by simp [SignalCall.outgoingCall])⟩)
    | refused =>
      exact hsame rfl rfl (hmodified (refuse_calls S _) fun _ => rfl) ⟨nofun, nofun, nofun⟩
        (.inl rfl)
    | turnedAway => exact .turnedAway _ _ rfl rfl
    | advanced | raced =>
      exact hsame rfl rfl (fun _ => .inl rfl) ⟨nofun, nofun, nofun⟩ (.inl rfl)
  | ended ht => exact ht.logTurn
  | placed hc hcall => exact .placed hc hcall rfl (by simp) rfl
  | placedStale hc hcall => exact .placed hc hcall rfl (by simp) rfl
  | offered =>
    exact hsame rfl rfl (halloc rfl) ⟨nofun, nofun, nofun⟩ (.inr ⟨rfl, .inl rfl⟩)
  | rang =>
    exact hsame rfl rfl (hmodified (ring_calls S _ _) fun _ => rfl) ⟨nofun, nofun, nofun⟩ (.inl rfl)
  | connected e hcall hclient => exact .connected hcall hclient rfl rfl
  | answered e hcall hclient => exact .answered hcall hclient rfl rfl
  | muted =>
    exact hsame rfl rfl (hmodified (mute_calls S _ _ _) fun _ => rfl) ⟨nofun, nofun, nofun⟩
      (.inl rfl)
  | videoSet =>
    exact hsame rfl rfl (hmodified (setVideo_calls S _ _ _) fun _ => rfl) ⟨nofun, nofun, nofun⟩
      (.inl rfl)

/-! ### The records -/

end Session

/-- The saved records for a call, oldest first. -/
def recordsOf (records : Heap TSCall) (call : CallRef) : List RecordRef :=
  (List.range records.next).filter fun r =>
    (records.get r).forCall = call ∧ (records.get r).saved = true

section
variable {records : Heap TSCall} {c : CallRef} {r : RecordRef}

theorem mem_recordsOf : r ∈ recordsOf records c ↔
    r < records.next ∧ (records.get r).forCall = c ∧ (records.get r).saved = true := by
  simp [recordsOf]

theorem recordsOf_alloc (records : Heap TSCall) (k : TSCall) (c : CallRef) :
    recordsOf (records.alloc k) c =
      recordsOf records c ++ if k.forCall = c ∧ k.saved = true then [records.next] else [] := by
  unfold recordsOf
  rw [Heap.next_alloc, List.range_succ, List.filter_append]
  congr 1
  · refine List.filter_congr fun r hr => ?_
    rw [Heap.get_alloc_of_lt _ _ (List.mem_range.mp hr)]
  · by_cases hk : k.forCall = c ∧ k.saved = true <;> simp [hk]

theorem recordsOf_modify (records : Heap TSCall) (r : RecordRef) {f : TSCall → TSCall}
    (hf : ∀ k, (f k).forCall = k.forCall ∧ (f k).saved = k.saved) (c : CallRef) :
    recordsOf (records.modify r f) c = recordsOf records c := by
  unfold recordsOf
  refine List.filter_congr fun r' _ => ?_
  rw [Heap.get_modify]
  split_ifs
  · simp only [(hf _).1, (hf _).2]
  · rfl

end

namespace Session
variable {S S' : Session} {e : Event} {i : Input} {c d : CallRef}

theorem recordsOf_complete (S : Session) (c d : CallRef) :
    recordsOf (S.complete c) d = recordsOf S.records d := by
  unfold complete
  split
  · rfl
  · exact recordsOf_modify _ _ (fun _ => by exact ⟨rfl, rfl⟩) _

theorem complete_get (S : Session) (c : CallRef) (r : RecordRef) :
    (S.complete c).get r = { S.records.get r with
      callType := if (S.calls.get c).callRecord = some r then completed (S.records.get r).callType
        else (S.records.get r).callType } := by
  unfold complete
  cases hrecord : (S.calls.get c).callRecord with
  | none => simp
  | some r' =>
    by_cases hr : r = r'
    · simp [hr]
    · simp [Heap.get_modify_of_ne _ _ hr, Ne.symm hr]

/-- The records that calls refer to are saved ones for these calls. -/
def OwnRecords (S : Session) : Prop :=
  ∀ c r, (S.calls.get c).callRecord = some r → r ∈ recordsOf S.records c

structure SameLog (S S' : Session) (d : CallRef) : Prop where
  records : recordsOf S'.records d = recordsOf S.records d
  callType : ∀ r ∈ recordsOf S.records d,
    (S'.records.get r).callType = (S.records.get r).callType
  missed : S'.missed.count d = S.missed.count d

/-- A record of the type `t` is added for `d`. -/
structure Adds (S S' : Session) (d : CallRef) (t : RPRecentCallType) : Prop where
  records : recordsOf S'.records d = recordsOf S.records d ++ [S.records.next]
  callType : (S'.records.get S.records.next).callType = t

theorem Adds.not_once {t : RPRecentCallType} {r : RecordRef} (h : S.Adds S' d t)
    (hr : r ∈ recordsOf S.records d) : ¬ (recordsOf S'.records d).length ≤ 1 := by
  rw [h.records, List.length_append, List.length_singleton]
  exact Nat.not_le.mpr (Nat.succ_lt_succ (List.length_pos_of_mem hr))

/-- What a turn means for the log of the call `d`. -/
inductive LogStep (S : Session) (i : Input) (S' : Session) (d : CallRef) : Prop
  | same (h : S.SameLog S' d)
    (hstate : (S'.calls.get d).state = .connected → (S.calls.get d).state = .connected)
    (haccepted : S.call = some d → i ≠ .accepted)
    (hanswers : S.call = some d → i = .userAnswers → S.client = none ∧ S'.call = none)
    (hhangup : S.call = some d → i = .remoteHangup →
      (S.calls.get d).state.isMissedByHangup = false)
    (hnew : S.calls.next ≤ d → d < S'.calls.next →
      S'.call = some d ∨ (S'.calls.get d).direction = .outgoing)
  | placed (hd : d ∈ S.unplaced) (h : S.Adds S' d .outgoingIncomplete)
    (hmissed : S'.missed = S.missed) (hcall : S'.call = some d)
    (hstate : (S'.calls.get d).state ≠ .connected)
  | turnedAway (hd : d = S.calls.next) (h : S.Adds S' d .missed)
    (hmissed : S'.missed = S.missed ++ [d]) (hcall : S'.call = S.call)
    (hdirection : (S'.calls.get d).direction = .incoming)
    (hstate : (S'.calls.get d).state ≠ .connected) (hunplaced : S'.unplaced = S.unplaced)
    (hnext : S'.calls.next = S.calls.next + 1)
  | connected (hcall : S.call = some d) (hi : i = .accepted) (hcall' : S'.call = some d)
    (hrecords : S'.records = S.complete d) (hmissed : S'.missed = S.missed)
    (hstate : (S'.calls.get d).state = .connected)
  | answered (hcall : S.call = some d) (hi : i = .userAnswers) (hclient : S.client ≠ none)
    (hcall' : S'.call = some d) (h : S.Adds S' d .incoming) (hmissed : S'.missed = S.missed)
    (hstate : (S'.calls.get d).state = .connected)
  | missed (hcall : S.call = some d) (hstate : (S.calls.get d).state.isMissedByHangup = true)
    (hi : i = .remoteHangup) (h : (S.calls.get d).callRecord = none → S.Adds S' d .missed)
    (hmissed : S'.missed = S.missed ++ [d]) (hcall' : S'.call = none)
    (hstate' : (S'.calls.get d).state ≠ .connected)

theorem miss_next (S : Session) (c : CallRef) : (S.miss c).calls.next = S.calls.next := by
  rw [miss_calls]
  split <;> rfl

theorem miss_records_of_none (h : (S.calls.get c).callRecord = none) :
    (S.miss c).records = S.records.alloc ⟨(S.calls.get c).remotePhoneNumber, .missed,
      ⟨(S.calls.get c).remotePhoneNumber⟩, true, c⟩ := by
  rw [miss_records, h]

/-- Adding a record for `c` adds to the log of `c` only. -/
theorem adds_of_alloc {k : TSCall} {t : RPRecentCallType}
    (hk : k.forCall = c ∧ k.saved = true ∧ k.callType = t)
    (h : S'.records = S.records.alloc k) : S.Adds S' c t :=
  ⟨by rw [h, recordsOf_alloc, if_pos ⟨hk.1, hk.2.1⟩], by rw [h, Heap.get_alloc_self, hk.2.2]⟩

theorem sameLog_of_alloc {k : TSCall} (h : S'.records = S.records.alloc k) (hk : k.forCall ≠ d)
    (hmissed : S'.missed.count d = S.missed.count d) : S.SameLog S' d where
  records := by rw [h, recordsOf_alloc, if_neg fun h => hk h.1, List.append_nil]
  callType r hr := by rw [h, Heap.get_alloc_of_lt _ _ (mem_recordsOf.mp hr).1]
  missed := hmissed

theorem LogTurn.of (ht : S.LogTurn i S') (howns : S.OwnRecords) (d : CallRef) :
    S.LogStep i S' d := by
  have hother (h : S.SameLog S' d)
      (hstate : (S'.calls.get d).state = .connected → (S.calls.get d).state = .connected)
      (hcall : i ≠ .other → S.call ≠ some d) (hnext : S'.calls.next ≤ d ∨ d < S.calls.next) :
      S.LogStep i S' d := by
    have hi (hd : S.call = some d) {j : Input} (hj : j ≠ .other) : i ≠ j := by
      rintro rfl
      exact hcall hj hd
    exact .same h hstate (fun hd => hi hd nofun) (fun hd h => absurd h (hi hd nofun))
      (fun hd h => absurd h (hi hd nofun)) fun hle hlt =>
        (hnext.elim (Nat.not_le.mpr hlt) (Nat.not_lt.mpr hle)).elim
  cases ht with
  | same h =>
    exact .same ⟨by rw [h.records], fun r _ => by rw [h.records], by rw [h.missed]⟩ (h.state d)
      (fun _ => h.accepted) (fun _ => h.userAnswers) (h.remoteHangup d) (h.new d)
  | @placed c state setUp hc hcall hi hstate hS' =>
    subst hS'
    by_cases hd : d = c
    · subst hd
      exact .placed hc (adds_of_alloc (by exact ⟨rfl, rfl, rfl⟩) rfl) rfl rfl
        (by simpa using hstate)
    · refine hother (sameLog_of_alloc rfl (Ne.symm hd) rfl) (fun h => ?_) (absurd hi)
        (Nat.lt_or_ge _ _).symm
      rwa [place_calls, Heap.get_modify_of_ne _ _ hd] at h
  | turnedAway number id hi hS' =>
    subst hS'
    by_cases hd : d = S.calls.next
    · subst hd
      exact .turnedAway rfl (adds_of_alloc (by exact ⟨rfl, rfl, rfl⟩) rfl) rfl rfl
        (by simp [SignalCall.incomingCall]) (by simp [SignalCall.incomingCall]) rfl rfl
    · refine hother (sameLog_of_alloc rfl (Ne.symm hd) ?_) (fun h => ?_) (absurd hi) ?_
      · simp [List.count_append, Ne.symm hd]
      · rwa [turnAway_calls, Heap.get_alloc, if_neg hd] at h
      · rw [turnAway_calls, Heap.next_alloc]
        exact (Nat.lt_or_gt_of_ne hd).symm
  | @connected c client hcall hclient hi hS' =>
    subst hS'
    by_cases hd : d = c
    · subst hd
      exact .connected hcall hi hcall rfl rfl (by simp)
    · refine hother ⟨recordsOf_complete S c d, fun r hr => ?_, rfl⟩ (fun h => ?_)
        (fun _ h => hd (Option.some.inj (h.symm.trans hcall))) (Nat.lt_or_ge _ _).symm
      · have hr : (S.calls.get c).callRecord ≠ some r := fun hrecord => hd <|
          (mem_recordsOf.mp hr).2.1.symm.trans (mem_recordsOf.mp (howns c r hrecord)).2.1
        rw [connect_records, complete_get, if_neg hr]
      · rwa [connect_calls, Heap.get_modify_of_ne _ _ hd] at h
  | @answered c client hcall hclient hi hS' =>
    subst hS'
    by_cases hd : d = c
    · subst hd
      exact .answered hcall hi (by simp [hclient]) hcall
        (adds_of_alloc (by exact ⟨rfl, rfl, rfl⟩) rfl) rfl (by simp)
    · refine hother (sameLog_of_alloc rfl (Ne.symm hd) rfl) (fun h => ?_)
        (fun _ h => hd (Option.some.inj (h.symm.trans hcall))) (Nat.lt_or_ge _ _).symm
      rwa [answer_calls, Heap.get_modify_of_ne _ _ hd] at h
  | @missed c hcall hstate hi hS' =>
    subst hS'
    by_cases hd : d = c
    · subst hd
      exact .missed hcall hstate hi
        (fun hnone => adds_of_alloc (by exact ⟨rfl, rfl, rfl⟩) (miss_records_of_none hnone))
        rfl rfl (by simp)
    · have hmissed : (S.missed ++ [c]).count d = S.missed.count d := by
        simp [List.count_append, Ne.symm hd]
      refine hother ?_ (fun h => ?_) (fun _ h => hd (Option.some.inj (h.symm.trans hcall))) ?_
      · cases hrecord : (S.calls.get c).callRecord with
        | none => exact sameLog_of_alloc (miss_records_of_none hrecord) (Ne.symm hd) hmissed
        | some r' =>
          have hr' := mem_recordsOf.mp (howns c r' hrecord)
          refine ⟨?_, fun r hr => ?_, hmissed⟩
          · rw [finish_records, miss_records, hrecord]
            exact recordsOf_modify _ _ (fun _ => by exact ⟨rfl, rfl⟩) _
          · have hne : r ≠ r' := by
              rintro rfl
              exact hd ((mem_recordsOf.mp hr).2.1.symm.trans hr'.2.1)
            rw [finish_records, miss_records, hrecord]
            exact congrArg TSCall.callType (Heap.get_modify_of_ne _ _ hne)
      · rwa [finish_calls, Heap.get_modify_of_ne _ _ hd, miss_calls_get] at h
      · rw [finish_calls, Heap.next_modify, miss_next]
        exact (Nat.lt_or_ge _ _).symm

theorem ownRecords_of_alloc {k : TSCall} (howns : S.OwnRecords) (hk : k.saved = true)
    (h : S'.records = S.records.alloc k)
    (hcalls : ∀ c, (S'.calls.get c).callRecord = (S.calls.get c).callRecord ∨
      c = k.forCall ∧ (S'.calls.get c).callRecord = some S.records.next) : S'.OwnRecords := by
  intro c r hr
  rw [h, recordsOf_alloc, List.mem_append]
  rcases hcalls c with hc | ⟨rfl, hc⟩
  · exact .inl (howns c r (hc ▸ hr))
  · obtain rfl := Option.some.inj (hc.symm.trans hr)
    exact .inr (by simp [hk])

theorem LogTurn.ownRecords (ht : S.LogTurn i S') (howns : S.OwnRecords) : S'.OwnRecords := by
  cases ht with
  | same h =>
    intro c r hr
    rw [h.records]
    rcases h.record c with hc | ⟨-, hc⟩
    · exact howns c r (hc ▸ hr)
    · exact nomatch hc.symm.trans hr
  | @placed c state setUp hc hcall hi hstate hS' =>
    subst hS'
    refine ownRecords_of_alloc howns rfl rfl fun d => ?_
    rw [place_calls, Heap.get_modify]
    split_ifs with hd
    · exact .inr ⟨hd, rfl⟩
    · exact .inl rfl
  | turnedAway number id hi hS' =>
    subst hS'
    refine ownRecords_of_alloc howns rfl rfl fun d => ?_
    rw [turnAway_calls, Heap.get_alloc]
    split_ifs with hd
    · exact .inr ⟨hd, rfl⟩
    · exact .inl rfl
  | @connected c client hcall hclient hi hS' =>
    subst hS'
    intro d r hr
    rw [connect_records, recordsOf_complete]
    refine howns d r ?_
    rw [connect_calls, Heap.get_modify] at hr
    split_ifs at hr <;> exact hr
  | @answered c client hcall hclient hi hS' =>
    subst hS'
    refine ownRecords_of_alloc howns rfl rfl fun d => ?_
    rw [answer_calls, Heap.get_modify]
    split_ifs with hd
    · exact .inr ⟨hd, rfl⟩
    · exact .inl rfl
  | @missed c hcall hstate hi hS' =>
    subst hS'
    have hget (d : CallRef) := (finish_proj SignalCall.callRecord (S.miss c) c
      (f := fun k => { k with state := .remoteHangup }) (fun _ => rfl) d).trans
        (congrArg SignalCall.callRecord (miss_calls_get S c d))
    cases hrecord : (S.calls.get c).callRecord with
    | none =>
      refine ownRecords_of_alloc howns rfl (miss_records_of_none hrecord) fun d => ?_
      rw [hget, hrecord]
      by_cases hd : d = c
      · exact .inr ⟨hd, by simp [hd]⟩
      · exact .inl (by simp [hd])
    | some r' =>
      intro d r hr
      rw [hget, hrecord] at hr
      rw [finish_records, miss_records, hrecord, recordsOf_modify _ _ fun _ => by exact ⟨rfl, rfl⟩]
      exact howns d r (by simpa using hr)

/-- A call becomes current only when it is placed or offered. -/
theorem Turn.begins (ht : S.Turn e i S') (hS : S.WellFormed) (hc : S'.call = some c) :
    S.call = some c ∨ S.call = none ∧
      (c ∈ S.unplaced ∧ (S'.calls.get c).callRecord ≠ none ∨
        c = S.calls.next ∧ (S'.calls.get c).direction = .incoming) := by
  cases ht with
  | aside ht => exact .inl ((ht.sameCurrent hS).call.symm.trans hc)
  | ended ht => exact nomatch ht.quiet.call.symm.trans hc
  | placed hd hcall | placedStale hd hcall =>
    obtain rfl := Option.some.inj hc
    exact .inr ⟨hcall, .inl ⟨hd, by simp⟩⟩
  | offered id sdp number hcall =>
    obtain rfl := Option.some.inj hc
    exact .inr ⟨hcall, .inr ⟨rfl, by simp [SignalCall.incomingCall]⟩⟩
  | idle | madeOutgoing | madeIncoming | rang | connected | answered | muted | videoSet
  | application | answerReceived | buffered | sent => exact .inl hc

/-- What a call keeps as long as it is current. -/
structure Keeps (S S' : Session) (c : CallRef) : Prop where
  state : (S.calls.get c).state = .connected → (S'.calls.get c).state = .connected
  client : S.client ≠ none → S'.client ≠ none
  callRecord : (S.calls.get c).callRecord ≠ none → (S'.calls.get c).callRecord ≠ none

theorem Turn.keeps (ht : S.Turn e i S') (hS : S.WellFormed) (hcall : S.call = some c)
    (hc : S'.call = some c) : S.Keeps S' c := by
  have hmodify {d : CallRef} {f : SignalCall → SignalCall} (hcalls : S'.calls = S.calls.modify d f)
      (hclient : S'.client = S.client)
      (hf : (S.calls.get d).state = .connected → (f (S.calls.get d)).state = .connected)
      (hrecord : (S.calls.get d).callRecord ≠ none → (f (S.calls.get d)).callRecord ≠ none) :
      S.Keeps S' c := by
    refine ⟨fun h => ?_, fun h => hclient ▸ h, fun h => ?_⟩ <;>
      rw [hcalls, Heap.get_modify] <;> split_ifs with hd
    · exact hd ▸ hf (hd ▸ h)
    · exact h
    · exact hd ▸ hrecord (hd ▸ h)
    · exact h
  cases ht with
  | aside ht =>
    have hsame := ht.sameCurrent hS
    have hcalls := hsame.calls c hcall
    exact ⟨fun h => hcalls ▸ h, fun h => hsame.client ▸ h, fun h => hcalls ▸ h⟩
  | ended ht => exact nomatch ht.quiet.call.symm.trans hc
  | placed _ hnone | placedStale _ hnone | offered _ _ _ hnone =>
    exact nomatch hcall.symm.trans hnone
  | madeOutgoing | madeIncoming => exact ⟨id, by simp, id⟩
  | idle | application | answerReceived | buffered | sent => exact ⟨id, id, id⟩
  | rang e hd hstate =>
    refine hmodify (ring_calls ..) rfl (fun h => ?_) fun h => h
    rcases hstate with ⟨hstate, -⟩ | ⟨hstate, -⟩ <;> exact nomatch hstate.symm.trans h
  | connected => exact hmodify (connect_calls ..) rfl (fun _ => rfl) fun h => h
  | answered => exact hmodify (answer_calls ..) rfl (fun _ => rfl) fun _ => by simp
  | muted => exact hmodify (mute_calls ..) rfl (fun h => h) fun h => h
  | videoSet => exact hmodify (setVideo_calls ..) rfl (fun h => h) fun h => h

end Session
end SignalIOS.Call
