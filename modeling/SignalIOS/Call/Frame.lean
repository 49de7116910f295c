import SignalIOS.Call.Refinement

/-! What transitions leave alone: the current call, the identity of calls, and states other than
the connected one. -/
namespace SignalIOS.Call
open SignalIOS.Lib

/-- What never changes about a call. -/
def SignalCall.identity (k : SignalCall) : CallDirection × UInt64 × String :=
  (k.direction, k.signalingId, k.remotePhoneNumber)

namespace Session
variable {S S' : Session} {e : Event} {i : Input}

/-- The current call and its client are the same in both sessions. -/
structure SameCurrent (S S' : Session) : Prop where
  call : S'.call = S.call
  client : S'.client = S.client
  thread : S'.thread = S.thread
  immediate : S'.immediate = S.immediate
  pending : S'.pending = S.pending
  inBackground : S'.inBackground = S.inBackground
  clients : S'.clients = S.clients
  iceUpdates : S'.iceUpdates = S.iceUpdates
  calls : ∀ c, S.call = some c → S'.calls.get c = S.calls.get c

theorem Aside.sameCurrent (ht : S.Aside e S') (hS : S.WellFormed) : S.SameCurrent S' := by
  have halloc (k : SignalCall) (c : CallRef) (hc : S.call = some c) :
      (S.calls.alloc k).get c = S.calls.get c := Heap.get_alloc_of_lt _ _ (hS.allocated c hc)
  cases ht with
  | created => exact ⟨rfl, rfl, rfl, rfl, rfl, rfl, rfl, rfl, halloc _⟩
  | refused hc =>
    refine ⟨rfl, rfl, rfl, rfl, rfl, rfl, rfl, rfl, fun c hcall => ?_⟩
    rw [refuse_calls, Heap.get_modify_of_ne _ _ (hS.current_not_unplaced hcall hc).symm]
  | turnedAway => exact ⟨rfl, rfl, rfl, rfl, rfl, rfl, rfl, rfl, halloc _⟩
  | advanced => exact ⟨rfl, rfl, rfl, rfl, rfl, rfl, rfl, rfl, fun _ _ => rfl⟩
  | raced => exact ⟨rfl, rfl, rfl, rfl, rfl, rfl, rfl, rfl, fun _ _ => rfl⟩

/-- Nothing of a call is left. -/
structure Quiet (S : Session) : Prop where
  call : S.call = none
  client : S.client = none
  thread : S.thread = none
  pending : S.pending = []
  immediate : S.immediate = true

theorem Ending.quiet (ht : S.Ending e i S') : S'.Quiet := by
  cases ht <;> exact ⟨rfl, rfl, rfl, rfl, rfl⟩

theorem get_forCall (S : Session) (f : SignalCall → SignalCall) (c : CallRef) :
    (S.forCall f).get c = if S.call = some c then f (S.calls.get c) else S.calls.get c := by
  unfold forCall
  cases hcall : S.call with
  | none => simp
  | some d => simp [Heap.get_modify, eq_comm]

theorem miss_calls_get (S : Session) (c d : CallRef) :
    (S.miss c).calls.get d = { S.calls.get d with
      callRecord := if d = c ∧ (S.calls.get c).callRecord = none then some S.records.next
        else (S.calls.get d).callRecord } := by
  rw [miss_calls]
  cases hrecord : (S.calls.get c).callRecord with
  | none =>
    by_cases hd : d = c
    · simp [hd]
    · simp [Heap.get_modify_of_ne _ _ hd, hd]
  | some record => simp

theorem Aside.identity (ht : S.Aside e S') {c : CallRef} (hc : c < S.calls.next) :
    (S'.calls.get c).identity = (S.calls.get c).identity := by
  cases ht with
  | created => rw [create_calls, Heap.get_alloc_of_lt _ _ hc]
  | refused =>
    exact Heap.proj_of_eq_modify SignalCall.identity (refuse_calls S _) (fun _ => rfl) c
  | turnedAway => rw [turnAway_calls, Heap.get_alloc_of_lt _ _ hc]
  | advanced | raced => rfl

/-- What a call ends with besides its state and its observers. -/
theorem finish_proj {β : Type*} (π : SignalCall → β) (S : Session) (c : CallRef)
    {f : SignalCall → SignalCall} (hf : ∀ k, π { f k with observers := [] } = π k) (d : CallRef) :
    π ((S.finish c f).calls.get d) = π (S.calls.get d) :=
  Heap.get_modify_proj π S.calls c _ hf d

theorem clear_proj {β : Type*} (π : SignalCall → β) (S : Session)
    (hπ : ∀ k, π { k with observers := [] } = π k) (d : CallRef) :
    π (S.clear.calls.get d) = π (S.calls.get d) := by
  rw [clear_calls, get_forCall]
  split_ifs
  · exact hπ _
  · rfl

theorem Ending.identity (ht : S.Ending e i S') (c : CallRef) :
    (S'.calls.get c).identity = (S.calls.get c).identity := by
  cases ht with
  | missed => rw [finish_proj SignalCall.identity _ _ fun _ => by rfl, miss_calls_get]; rfl
  | reset | cleared => exact clear_proj SignalCall.identity S (fun _ => rfl) c
  | caughtCleared => exact clear_proj SignalCall.identity (S.stage _ .caught) (fun _ => rfl) c
  | localHangup | remoteHangup | remoteBusy | failed =>
    exact finish_proj SignalCall.identity S _ (fun _ => by rfl) c
  | answerFailed => exact finish_proj SignalCall.identity S.sendPending _ (fun _ => by rfl) c
  | caughtFailed =>
    exact finish_proj SignalCall.identity (S.stage _ .caught) _ (fun _ => by rfl) c

/-- Direction, signaling id and remote party of a call never change. -/
theorem Turn.identity (ht : S.Turn e i S') {c : CallRef} (hc : c < S.calls.next) :
    (S'.calls.get c).identity = (S.calls.get c).identity := by
  have hmodified {d : CallRef} {f : SignalCall → SignalCall}
      (hcalls : S'.calls = S.calls.modify d f) (hf : ∀ k, (f k).identity = k.identity) :
      (S'.calls.get c).identity = (S.calls.get c).identity :=
    Heap.proj_of_eq_modify SignalCall.identity hcalls hf c
  cases ht with
  | aside h => exact h.identity hc
  | ended h => exact h.identity c
  | offered => rw [offer_calls, Heap.get_alloc_of_lt _ _ hc]
  | idle | madeOutgoing | madeIncoming | application | answerReceived | buffered | sent => rfl
  | placed | placedStale => exact hmodified (place_calls S _ _ _) fun _ => rfl
  | rang => exact hmodified (ring_calls S _ _) fun _ => rfl
  | connected => exact hmodified (connect_calls S _ _) fun _ => rfl
  | answered => exact hmodified (answer_calls S _ _) fun _ => rfl
  | muted => exact hmodified (mute_calls S _ _ _) fun _ => rfl
  | videoSet => exact hmodified (setVideo_calls S _ _ _) fun _ => rfl

/-- These inputs always end the call. -/
theorem Turn.call_eq_none (ht : S.Turn e i S')
    (hi : i ∈ [Input.failure, .remoteHangup, .remoteBusy, .userDeclines, .reset]) :
    S'.call = none := by
  cases ht with
  | ended ht => exact ht.quiet.call
  | _ => simp at hi

/-- What can end a call. -/
theorem Turn.ends (ht : S.Turn e i S') {c : CallRef} (hcall : S.call = some c)
    (hc : S'.call ≠ some c) :
    i ∈ [Input.failure, .remoteBusy, .reset, .userDeclines, .remoteHangup] ∨
      S.client = none ∧ (i = .answer ∨ i = .userAnswers) := by
  cases ht with
  | ended ht =>
    cases ht with
    | failed e i error _ hi =>
      rcases hi with rfl | ⟨hclient, rfl | rfl⟩
      · exact .inl (by simp)
      · exact .inr ⟨hclient, .inr rfl⟩
      · exact .inl (by simp)
    | answerFailed e error _ hclient => exact .inr ⟨hclient, .inl rfl⟩
    | cleared e hnone => exact nomatch hcall.symm.trans hnone
    | caughtCleared hnone => exact nomatch hcall.symm.trans hnone
    | _ => exact .inl (by simp)
  | aside ht =>
    cases ht <;> exact absurd hcall hc
  | placed _ hnone | placedStale _ hnone | offered _ _ _ hnone =>
    exact nomatch hcall.symm.trans hnone
  | _ => exact absurd hcall hc

/-- What an answer does. -/
theorem Turn.answer_cases (ht : S.Turn e .answer S') :
    S.client ≠ none ∧ S' = S.sendPending ∨
      S.client = none ∧ S'.call = none ∧ S'.iceUpdates = S.iceUpdates ++ S.pending := by
  cases ht with
  | answerReceived e hcall hclient => exact .inl ⟨hclient, rfl⟩
  | ended ht =>
    cases ht with
    | answerFailed e error hcall hclient => exact .inr ⟨hclient, rfl, rfl⟩
    | failed e i error hcall hi => simp at hi

/-! ### Connected calls -/

theorem Ending.state_connected (ht : S.Ending e i S') {c : CallRef}
    (hc : (S'.calls.get c).state = .connected) : (S.calls.get c).state = .connected := by
  have hfinish {T : Session} {d : CallRef} {f : SignalCall → SignalCall}
      (hf : ∀ k, (f k).state ≠ .connected) (hc : ((T.finish d f).calls.get c).state = .connected) :
      (T.calls.get c).state = .connected := by
    rw [finish_calls, Heap.get_modify] at hc
    split_ifs at hc
    · exact absurd hc (hf _)
    · exact hc
  have hclear {T : Session} (hc : (T.clear.calls.get c).state = .connected) :
      (T.calls.get c).state = .connected := by
    rw [clear_calls, get_forCall] at hc
    split_ifs at hc <;> exact hc
  cases ht with
  | missed e hcall =>
    have := hfinish (by simp) hc
    rwa [miss_calls_get] at this
  | reset | cleared => exact hclear hc
  | caughtCleared => exact hclear (T := S.stage _ .caught) hc
  | localHangup | remoteHangup | remoteBusy => exact hfinish (by simp) hc
  | failed => exact hfinish (by simp) hc
  | answerFailed => exact hfinish (T := S.sendPending) (by simp) hc
  | caughtFailed => exact hfinish (T := S.stage _ .caught) (by simp) hc

/-- A call connects only when it is current, by its user's answer or the other side's report. -/
theorem Turn.state_connected (ht : S.Turn e i S') {c : CallRef}
    (hc : (S'.calls.get c).state = .connected) :
    (S.calls.get c).state = .connected ∨
      S.call = some c ∧ S.client ≠ none ∧ (i = .accepted ∨ i = .userAnswers) := by
  have halloc {k : SignalCall} (hk : k.state ≠ .connected)
      (hc : ((S.calls.alloc k).get c).state = .connected) : (S.calls.get c).state = .connected := by
    rw [Heap.get_alloc] at hc
    split_ifs at hc
    · exact absurd hc hk
    · exact hc
  cases ht with
  | aside h =>
    cases h with
    | created => exact .inl (halloc (by simp [SignalCall.outgoingCall]) hc)
    | refused =>
      rw [refuse_calls, Heap.get_modify] at hc
      split_ifs at hc
      exact .inl hc
    | turnedAway => exact .inl (halloc (by simp [SignalCall.incomingCall]) hc)
    | advanced | raced => exact .inl hc
  | ended h => exact .inl (h.state_connected hc)
  | offered => exact .inl (halloc (by simp [SignalCall.incomingCall]) hc)
  | idle | madeOutgoing | madeIncoming | application | answerReceived | buffered | sent =>
    exact .inl hc
  | placed | placedStale =>
    rw [place_calls, Heap.get_modify] at hc
    split_ifs at hc
    exact .inl hc
  | rang e hcall hstate =>
    rw [ring_calls, Heap.get_modify] at hc
    split_ifs at hc
    · rcases hstate with ⟨-, rfl⟩ | ⟨-, rfl⟩ <;> exact absurd hc (by simp)
    · exact .inl hc
  | @connected e d client hcall hclient =>
    by_cases hd : c = d
    · exact .inr ⟨hd ▸ hcall, by simp [hclient], .inl rfl⟩
    · rw [connect_calls, Heap.get_modify_of_ne _ _ hd] at hc
      exact .inl hc
  | @answered e d client hcall hclient =>
    by_cases hd : c = d
    · exact .inr ⟨hd ▸ hcall, by simp [hclient], .inr rfl⟩
    · rw [answer_calls, Heap.get_modify_of_ne _ _ hd] at hc
      exact .inl hc
  | muted =>
    rw [mute_calls, Heap.get_modify] at hc
    split_ifs at hc <;> exact .inl hc
  | videoSet =>
    rw [setVideo_calls, Heap.get_modify] at hc
    split_ifs at hc <;> exact .inl hc

theorem Ending.next_calls (ht : S.Ending e i S') : S'.calls.next = S.calls.next := by
  have hclear (T : Session) : T.clear.calls.next = T.calls.next := by
    rw [clear_calls, forCall]
    split <;> rfl
  cases ht with
  | missed =>
    rw [finish_calls, Heap.next_modify, miss_calls]
    split <;> rfl
  | reset | cleared => exact hclear S
  | caughtCleared => exact hclear (S.stage _ .caught)
  | _ => rfl

theorem Turn.next_le (ht : S.Turn e i S') : S.calls.next ≤ S'.calls.next := by
  cases ht with
  | aside h =>
    cases h with
    | created | turnedAway => exact Nat.le_succ _
    | refused | advanced | raced => exact Nat.le_refl _
  | ended h => exact Nat.le_of_eq h.next_calls.symm
  | offered => exact Nat.le_succ _
  | _ => exact Nat.le_refl _

theorem Ending.unplaced (ht : S.Ending e i S') : S'.unplaced = S.unplaced := by
  cases ht <;> rfl

/-- A call that is not placed yet was not placed before. -/
theorem Turn.not_placed (ht : S.Turn e i S') {d : CallRef}
    (hd : d ∈ S'.unplaced ∨ S'.calls.next ≤ d) : d ∈ S.unplaced ∨ S.calls.next ≤ d := by
  refine hd.elim (fun hd => ?_) fun hd => .inr (Nat.le_trans ht.next_le hd)
  cases ht with
  | aside ht =>
    cases ht with
    | created =>
      rcases List.mem_cons.mp hd with rfl | hd
      · exact .inr (Nat.le_refl _)
      · exact .inl hd
    | refused => exact .inl (List.mem_of_mem_erase hd)
    | turnedAway | advanced | raced => exact .inl hd
  | ended ht => exact .inl (ht.unplaced ▸ hd)
  | placed | placedStale => exact .inl (List.mem_of_mem_erase hd)
  | _ => exact .inl hd

/-- What connecting does, on either side's word. -/
theorem Turn.connects (ht : S.Turn e i S')
    {c : CallRef} (hcall : S.call = some c)
    (hi : i = .accepted ∨ i = .userAnswers ∧ S.client ≠ none) :
    ∃ client, S.client = some client ∧ (S' = S.connect c client ∨ S' = S.answer c client) := by
  cases ht with
  | connected e hcall' hclient =>
    obtain rfl := Option.some.inj (hcall.symm.trans hcall')
    exact ⟨_, hclient, .inl rfl⟩
  | answered e hcall' hclient =>
    obtain rfl := Option.some.inj (hcall.symm.trans hcall')
    exact ⟨_, hclient, .inr rfl⟩
  | ended h =>
    cases h with
    | failed _ _ _ _ hfails => rcases hi with rfl | ⟨rfl, hclient⟩ <;> simp_all
    | _ => simp_all
  | _ => simp_all

end Session
end SignalIOS.Call
