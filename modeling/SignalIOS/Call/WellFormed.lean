import SignalIOS.Call.Transition
import Mathlib.Data.List.Basic

/-! Every transition keeps a session well formed. -/
namespace SignalIOS.Call
open SignalIOS.Lib
namespace SetUp.Advance

variable {s t : SetUp}

theorem started (h : s.Advance t) : s ≠ .notStarted := by
  cases h <;> simp

theorem isLate (h : s.Advance t) (hs : s.isLate = true) : t.isLate = true := by
  cases h <;> simp_all [SetUp.isLate]

end SetUp.Advance

namespace Session
variable {S : Session} {c : CallRef} {client : ClientRef}

namespace WellFormed

theorem initial : State.initial.core.WellFormed where
  observers _ := rfl
  allocated _ h := nomatch h
  thread := rfl
  notIdle _ := by simp [State.core, State.initial, Heap.empty, SignalCall.outgoingCall]
  client _ h := nomatch h
  nodup := .nil
  unplaced _ h := nomatch h
  notStarted _ _ := rfl
  promise _ h := nomatch h

theorem started (h : S.WellFormed) {d : CallRef} (hc : S.setUp c ≠ .notStarted)
    (hd : d ∈ S.unplaced ∨ S.calls.next ≤ d) : d ≠ c := by
  rintro rfl
  exact hc (hd.elim (fun hd => (h.unplaced d hd).2.1) (h.notStarted d))

theorem stage (h : S.WellFormed) {s : SetUp} (hc : S.setUp c ≠ .notStarted)
    (hlate : S.promise = some c → s.isLate = true) : (S.stage c s).WellFormed :=
  { h with
    unplaced := fun d hd => by
      have hne : d ≠ c := h.started hc (.inl hd)
      simpa [hne] using h.unplaced d hd
    notStarted := fun d hd => by
      have hne : d ≠ c := h.started hc (.inr hd)
      simpa [hne] using h.notStarted d hd
    promise := fun d hd => by
      rw [stage_setUp]
      split_ifs with hdc
      · exact hlate (hdc ▸ hd)
      · exact h.promise d hd }

/-- Changes to calls that keep what well-formedness says about them. -/
theorem of_calls (h : S.WellFormed) (calls : Heap SignalCall) (hnext : calls.next = S.calls.next)
    (hcalls : ∀ d, (calls.get d).observers = (S.calls.get d).observers ∧
      (calls.get d).remotePhoneNumber = (S.calls.get d).remotePhoneNumber ∧
      (calls.get d).state ≠ .idle)
    (hfresh : ∀ d ∈ S.unplaced, calls.get d = S.calls.get d) :
    WellFormed { S with calls } :=
  { h with
    observers := fun d => (hcalls d).1.trans (h.observers d)
    allocated := fun d hd => hnext ▸ h.allocated d hd
    thread := by
      rw [h.thread]
      simp only [(hcalls _).2.1]
    notIdle := fun d => (hcalls d).2.2
    unplaced := fun d hd => by
      simpa [hnext, hfresh d hd] using h.unplaced d hd
    notStarted := fun d hd => h.notStarted d (hnext ▸ hd) }

theorem current_not_unplaced (h : S.WellFormed) (hcall : S.call = some c) {d : CallRef}
    (hd : d ∈ S.unplaced) : d ≠ c := by
  rintro rfl
  obtain ⟨-, -, number, id, hd⟩ := h.unplaced d hd
  have := h.observers d
  simp [hd, hcall, SignalCall.outgoingCall] at this

theorem of_clients (h : S.WellFormed) (clients : Heap PeerConnectionClient)
    (hnext : clients.next = S.clients.next)
    (hclients : ∀ k, (clients.get k).terminated = (S.clients.get k).terminated) :
    WellFormed { S with clients } :=
  { h with client := fun k hk => by simpa [hnext, hclients] using h.client k hk }

@[simp] theorem next_forClient (S : Session) (f : PeerConnectionClient → PeerConnectionClient) :
    (S.forClient f).next = S.clients.next := by
  unfold forClient
  split <;> rfl

theorem forClient_proj {β : Type*} (π : PeerConnectionClient → β) (S : Session)
    (f : PeerConnectionClient → PeerConnectionClient) (hf : ∀ k, π (f k) = π k) (k : ClientRef) :
    π ((S.forClient f).get k) = π (S.clients.get k) := by
  unfold forClient
  split
  · rfl
  · exact Heap.get_modify_proj π _ _ _ hf k

theorem modify_call (h : S.WellFormed) (hcall : S.call = some c) {f : SignalCall → SignalCall}
    (hf : ∀ k, (f k).observers = k.observers ∧ (f k).remotePhoneNumber = k.remotePhoneNumber)
    (hstate : (f (S.calls.get c)).state ≠ .idle) :
    WellFormed { S with calls := S.calls.modify c f } := by
  refine h.of_calls _ rfl (fun d => ?_) fun d hd => ?_
  · rw [Heap.get_modify]
    split_ifs with hd
    · exact ⟨(hf _).1, (hf _).2, hd ▸ hstate⟩
    · exact ⟨rfl, rfl, h.notIdle d⟩
  · exact Heap.get_modify_of_ne _ _ (h.current_not_unplaced hcall hd)

theorem erase (h : S.WellFormed) (c : CallRef) :
    WellFormed { S with unplaced := S.unplaced.erase c } :=
  { h with
    nodup := h.nodup.erase c
    unplaced := fun d hd => h.unplaced d (List.mem_of_mem_erase hd) }

theorem alloc (h : S.WellFormed) {k : SignalCall} (hk : k.observers = [])
    (hstate : k.state ≠ .idle) : WellFormed { S with calls := S.calls.alloc k } where
  observers d := by
    rw [Heap.get_alloc]
    split_ifs with hd hcall hcall
    · exact absurd (h.allocated d hcall) (hd ▸ Nat.lt_irrefl _)
    · exact hk
    · rw [h.observers, if_pos hcall]
    · rw [h.observers, if_neg hcall]
  allocated d hd := Nat.lt_succ_of_lt (h.allocated d hd)
  thread := by
    rw [h.thread]
    cases hcall : S.call with
    | none => rfl
    | some d => simp [Heap.get_alloc_of_lt _ _ (h.allocated d hcall)]
  notIdle d := by
    rw [Heap.get_alloc]
    split_ifs
    · exact hstate
    · exact h.notIdle d
  client := h.client
  nodup := h.nodup
  unplaced d hd := by
    obtain ⟨hlt, hset, hcall⟩ := h.unplaced d hd
    exact ⟨Nat.lt_succ_of_lt hlt, hset, by rwa [Heap.get_alloc_of_lt _ _ hlt]⟩
  notStarted d hd := h.notStarted d (Nat.le_of_succ_le hd)
  promise := h.promise

theorem create (h : S.WellFormed) (number : String) (id : UInt64) :
    (S.create number id).WellFormed :=
  { h.alloc (k := .outgoingCall number id) rfl (by simp [SignalCall.outgoingCall]) with
    nodup := List.nodup_cons.mpr ⟨fun hd => Nat.lt_irrefl _ (h.unplaced _ hd).1, h.nodup⟩
    unplaced := fun d hd => by
      rcases List.mem_cons.mp hd with rfl | hd
      · exact ⟨Nat.lt_succ_self _, h.notStarted _ (Nat.le_refl _), number, id,
          Heap.get_alloc_self _ _⟩
      · obtain ⟨hlt, hset, hcall⟩ := h.unplaced d hd
        exact ⟨Nat.lt_succ_of_lt hlt, hset, by rwa [create_calls, Heap.get_alloc_of_lt _ _ hlt]⟩ }

theorem turnAway (h : S.WellFormed) (number : String) (id : UInt64) :
    (S.turnAway number id).WellFormed :=
  { h.alloc (k := { SignalCall.incomingCall number id with callRecord := some S.records.next })
      rfl (by simp [SignalCall.incomingCall]) with }

theorem offer (h : S.WellFormed) (hcall : S.call = none) (number : String) (id : UInt64)
    (sdp : String) : (S.offer number id sdp).WellFormed :=
  { h.alloc (k := .incomingCall number id) rfl (by simp [SignalCall.incomingCall]) with
    observers := fun d => by
      have hd := h.observers d
      simp only [hcall, reduceCtorEq, if_false] at hd
      by_cases hn : d = S.calls.next
      · simp [hn]
      · simp [Heap.get_alloc, hn, hd, Ne.symm hn]
    allocated := fun d hd => Option.some.inj hd ▸ Nat.lt_succ_self _
    thread := by simp [SignalCall.incomingCall]
    notIdle := fun d => by
      rw [offer_calls, Heap.get_alloc]
      split_ifs
      · simp [SignalCall.incomingCall]
      · exact h.notIdle d
    client := fun k hk => by
      simpa [forClient_proj PeerConnectionClient.terminated] using h.client k hk
    unplaced := fun d hd => by
      obtain ⟨hlt, hset, hcall⟩ := h.unplaced d hd
      have hn : d ≠ S.calls.next := Nat.ne_of_lt hlt
      refine ⟨Nat.lt_succ_of_lt hlt, ?_, ?_⟩
      · rw [offer_setUp, if_neg hn, hset]
      · rwa [offer_calls, Heap.get_alloc_of_lt _ _ hlt]
    notStarted := fun d hd => by
      have hn : d ≠ S.calls.next := Nat.ne_of_gt hd
      rw [offer_setUp, if_neg hn]
      exact h.notStarted d (Nat.le_of_succ_le hd)
    promise := fun d hd => by
      have hd := h.promise d hd
      rw [offer_setUp]
      split_ifs with hn
      · rw [hn, h.notStarted _ (Nat.le_refl _)] at hd
        exact absurd hd (by simp [SetUp.isLate])
      · exact hd }

/-- An unplaced call becomes current. -/
theorem place (h : S.WellFormed) (hc : c ∈ S.unplaced) (hcall : S.call = none)
    {state : CallState} (hstate : state ≠ .idle) (setUp : SetUp) :
    (S.place c state setUp).WellFormed where
  observers d := by
    have hd := h.observers d
    simp only [hcall, reduceCtorEq, if_false] at hd
    by_cases hdc : d = c
    · simp [hdc]
    · simp [Heap.get_modify_of_ne _ _ hdc, hd, Ne.symm hdc]
  allocated d hd := Option.some.inj hd ▸ (h.unplaced c hc).1
  thread := by simp
  notIdle d := by
    rw [place_calls, Heap.get_modify]
    split_ifs
    · exact hstate
    · exact h.notIdle d
  client k hk := by
    simpa [forClient_proj PeerConnectionClient.terminated] using h.client k hk
  nodup := h.nodup.erase c
  unplaced d hd := by
    obtain ⟨hlt, hset, hcall⟩ := h.unplaced d (List.mem_of_mem_erase hd)
    have hdc : d ≠ c := ((h.nodup.mem_erase_iff).mp hd).1
    exact ⟨hlt, by rw [place_setUp, if_neg hdc, hset],
      by rwa [place_calls, Heap.get_modify_of_ne _ _ hdc]⟩
  notStarted d hd := by
    have hdc : d ≠ c := Nat.ne_of_gt (Nat.lt_of_lt_of_le (h.unplaced c hc).1 hd)
    rw [place_setUp, if_neg hdc]
    exact h.notStarted d hd
  promise d hd := by
    have hlate := h.promise d hd
    rw [place_setUp]
    split_ifs with hdc
    · rw [hdc, (h.unplaced c hc).2.1] at hlate
      exact absurd hlate (by simp [SetUp.isLate])
    · exact hlate

theorem refuse (h : S.WellFormed) (c : CallRef) : (S.refuse c).WellFormed := by
  refine (h.erase c).of_calls _ rfl (fun d => ?_) fun d hd => ?_
  · rw [Heap.get_modify]
    split_ifs
    · exact ⟨rfl, rfl, by simp⟩
    · exact ⟨rfl, rfl, h.notIdle d⟩
  · exact Heap.get_modify_of_ne _ _ (h.nodup.mem_erase_iff.mp hd).1

theorem makeClient (h : S.WellFormed) {k : PeerConnectionClient} (hk : k.terminated = false)
    {stage : SetUp} (hc : S.setUp c ≠ .notStarted) (hlate : (S.setUp c).isLate = false) :
    (S.makeClient c k stage).WellFormed :=
  { h.stage (s := stage) hc fun hp => by simp [h.promise c hp] at hlate with
    client := fun k' hk' => by
      obtain rfl : S.clients.next = k' := Option.some.inj hk'
      simpa using hk }

theorem race (h : S.WellFormed) (hc : S.setUp c ≠ .notStarted) : (S.race c).WellFormed :=
  { h.stage (s := .race) hc fun _ => rfl with
    promise := fun d hd => by
      obtain rfl : c = d := Option.some.inj hd
      simp [SetUp.isLate] }

theorem isLate_fulfilled (S : Session) (d : CallRef) :
    (S.fulfilled d).isLate = (S.setUp d).isLate ∧
      (S.fulfilled d = .notStarted ↔ S.setUp d = .notStarted) := by
  unfold fulfilled
  split_ifs with hd
  · simp [hd.2, SetUp.isLate]
  · simp

/-- The connected promise is fulfilled. -/
theorem fulfilled (h : S.WellFormed) : WellFormed { S with setUp := S.fulfilled } :=
  { h with
    unplaced := fun d hd => by
      simpa [(isLate_fulfilled S d).2] using h.unplaced d hd
    notStarted := fun d hd => (isLate_fulfilled S d).2.mpr (h.notStarted d hd)
    promise := fun d hd => (isLate_fulfilled S d).1.trans (h.promise d hd) }

theorem ring (h : S.WellFormed) (hcall : S.call = some c) {state : CallState}
    (hstate : state ≠ .idle) : (S.ring c state).WellFormed :=
  (h.modify_call hcall (f := fun k => { k with state }) (fun _ => ⟨rfl, rfl⟩) hstate).of_clients
    _ (next_forClient _ _) (forClient_proj PeerConnectionClient.terminated _ _ fun _ => rfl)

theorem connect (h : S.WellFormed) (hcall : S.call = some c) (client : ClientRef) :
    (S.connect c client).WellFormed :=
  { (h.fulfilled.modify_call hcall (f := fun k => { k with state := .connected })
      (fun _ => ⟨rfl, rfl⟩) (by simp)).of_clients
      (S.clients.modify client (S.connectClient c)) rfl
      (Heap.get_modify_proj PeerConnectionClient.terminated S.clients client (S.connectClient c)
        fun _ => rfl) with }

theorem answer (h : S.WellFormed) (hcall : S.call = some c) (client : ClientRef) :
    (S.answer c client).WellFormed :=
  { (h.fulfilled.modify_call hcall
      (f := fun k => { k with callRecord := some S.records.next, state := .connected })
      (fun _ => ⟨rfl, rfl⟩) (by simp)).of_clients
      (S.clients.modify client (S.connectClient c)) rfl
      (Heap.get_modify_proj PeerConnectionClient.terminated S.clients client (S.connectClient c)
        fun _ => rfl) with }

theorem mute (h : S.WellFormed) (hcall : S.call = some c) (client : ClientRef) (isMuted : Bool) :
    (S.mute c client isMuted).WellFormed :=
  (h.modify_call hcall (f := fun k => { k with isMuted }) (fun _ => ⟨rfl, rfl⟩)
    (h.notIdle c)).of_clients _ rfl
    (Heap.get_modify_proj PeerConnectionClient.terminated S.clients client _ fun _ => rfl)

theorem setVideo (h : S.WellFormed) (hcall : S.call = some c) (client : ClientRef)
    (hasLocalVideo : Bool) : (S.setVideo c client hasLocalVideo).WellFormed :=
  (h.modify_call hcall (f := fun k => { k with hasLocalVideo }) (fun _ => ⟨rfl, rfl⟩)
    (h.notIdle c)).of_clients _ rfl
    (Heap.get_modify_proj PeerConnectionClient.terminated S.clients client _ fun _ => rfl)

theorem syncVideo (h : S.WellFormed) : S.syncVideo.WellFormed := by
  refine h.of_clients S.syncVideo.clients ?_ fun k => ?_
  · rw [syncVideo_clients]
    split
    · rfl
    · exact next_forClient _ _
  · rw [syncVideo_clients]
    split
    · rfl
    · exact forClient_proj PeerConnectionClient.terminated S (requestVideo _) (fun _ => rfl) k

theorem setBackground (h : S.WellFormed) (inBackground : Bool) :
    (S.setBackground inBackground).WellFormed := by
  have h' : WellFormed { S with inBackground } := { h with }
  exact h'.syncVideo

theorem miss (h : S.WellFormed) (hcall : S.call = some c) : (S.miss c).WellFormed := by
  have hcalls : WellFormed { S with calls := (S.miss c).calls } := by
    rw [miss_calls]
    split
    · exact h.modify_call hcall (fun _ => ⟨rfl, rfl⟩) (h.notIdle c)
    · exact h
  exact { hcalls with }

theorem sendPending (h : S.WellFormed) : S.sendPending.WellFormed := { h with }

theorem buffer (h : S.WellFormed) (message : OWSCallIceUpdateMessage) :
    (S.buffer message).WellFormed := { h with }

theorem send (h : S.WellFormed) (message : OWSCallIceUpdateMessage) :
    (S.send message).WellFormed := { h with }

/-- No call is current, and its observers are gone. -/
theorem ended (h : S.WellFormed) {S' : Session} (hcall : S'.call = none)
    (hclient : S'.client = none)
    (hthread : S'.thread = none) (hnext : S'.calls.next = S.calls.next)
    (hcalls : ∀ d, (S'.calls.get d).observers = [] ∧ (S'.calls.get d).state ≠ .idle)
    (hfresh : ∀ d ∈ S.unplaced, S'.calls.get d = S.calls.get d)
    (hunplaced : S'.unplaced = S.unplaced) (hsetUp : S'.setUp = S.setUp)
    (hpromise : S'.promise = S.promise) : S'.WellFormed where
  observers d := by rw [hcall, if_neg nofun, (hcalls d).1]
  allocated d hd := nomatch hcall ▸ hd
  thread := by rw [hthread, hcall, Option.map_none]
  notIdle d := (hcalls d).2
  client k hk := nomatch hclient ▸ hk
  nodup := hunplaced ▸ h.nodup
  unplaced d hd := by
    rw [hunplaced] at hd
    rw [hnext, hsetUp, hfresh d hd]
    exact h.unplaced d hd
  notStarted d hd := hsetUp ▸ h.notStarted d (hnext ▸ hd)
  promise d hd := hsetUp ▸ h.promise d (hpromise ▸ hd)

theorem finish (h : S.WellFormed) (hcall : S.call = some c) {f : SignalCall → SignalCall}
    (hf : ∀ k, (f k).state ≠ .idle) : (S.finish c f).WellFormed := by
  refine h.ended rfl rfl rfl rfl (fun d => ?_) (fun d hd => ?_) rfl rfl rfl
  · rw [finish_calls, Heap.get_modify]
    split_ifs with hd
    · exact ⟨rfl, hf _⟩
    · refine ⟨?_, h.notIdle d⟩
      rw [h.observers, hcall, if_neg (by simpa using Ne.symm hd)]
  · rw [finish_calls, Heap.get_modify_of_ne _ _ (h.current_not_unplaced hcall hd)]

theorem fail (h : S.WellFormed) (hcall : S.call = some c) (error : CallError) :
    (S.fail c error).WellFormed :=
  h.finish hcall fun _ => by simp

theorem clear (h : S.WellFormed) : S.clear.WellFormed := by
  cases hcall : S.call with
  | none =>
    have hcalls : S.clear.calls = S.calls := by rw [clear_calls, forCall, hcall]
    refine h.ended rfl rfl rfl (by rw [hcalls]) (fun d => ?_) (fun d _ => by rw [hcalls])
      rfl rfl rfl
    rw [hcalls, h.observers, hcall, if_neg nofun]
    exact ⟨rfl, h.notIdle d⟩
  | some c =>
    have hcalls : S.clear.calls = S.calls.modify c fun k => { k with observers := [] } := by
      rw [clear_calls, forCall, hcall]
    refine h.ended rfl rfl rfl (by rw [hcalls, Heap.next_modify]) (fun d => ?_) (fun d hd => ?_)
      rfl rfl rfl
    · rw [hcalls, Heap.get_modify]
      split_ifs with hd
      · exact ⟨rfl, h.notIdle d⟩
      · refine ⟨?_, h.notIdle d⟩
        rw [h.observers, hcall, if_neg (by simpa using Ne.symm hd)]
    · rw [hcalls]
      exact Heap.get_modify_of_ne _ _ (h.current_not_unplaced hcall hd)

end WellFormed

theorem Aside.wellFormed {e : Event} {S' : Session} (ht : S.Aside e S') (h : S.WellFormed) :
    S'.WellFormed := by
  cases ht with
  | created => exact h.create _ _
  | refused hc => exact h.refuse _
  | turnedAway => exact h.turnAway _ _
  | advanced k hadv => exact h.stage hadv.started fun hp => hadv.isLate (h.promise _ hp)
  | raced hc => exact h.race (by simp [hc])

theorem Ending.wellFormed {e : Event} {i : Input} {S' : Session} (ht : S.Ending e i S')
    (h : S.WellFormed) : S'.WellFormed := by
  cases ht with
  | localHangup e hcall => exact h.finish hcall (by simp)
  | remoteHangup e hcall => exact h.finish hcall (by simp)
  | missed e hcall => exact (h.miss hcall).finish hcall (by simp)
  | remoteBusy e hcall => exact h.finish hcall (by simp)
  | reset => exact h.clear
  | failed e i error hcall => exact h.fail hcall _
  | answerFailed e error hcall => exact h.sendPending.fail hcall _
  | caughtFailed error hcall hd =>
    exact (h.stage (by simp [hd]) fun _ => rfl).fail hcall _
  | cleared => exact h.clear
  | caughtCleared hcall hd => exact (h.stage (by simp [hd]) fun _ => rfl).clear

theorem Turn.wellFormed {e : Event} {i : Input} {S' : Session} (ht : S.Turn e i S')
    (h : S.WellFormed) : S'.WellFormed := by
  cases ht with
  | idle => exact h
  | aside ht => exact ht.wellFormed h
  | placed hc hcall => exact h.place hc hcall (by simp) _
  | placedStale hc hcall => exact h.place hc hcall (by simp) _
  | offered id sdp number hcall => exact h.offer hcall _ _ _
  | madeOutgoing result hc => exact h.makeClient rfl (by simp [hc]) (by simp [hc, SetUp.isLate])
  | madeIncoming result hc => exact h.makeClient rfl (by simp [hc]) (by simp [hc, SetUp.isLate])
  | rang e hcall hstate =>
    exact h.ring hcall (by rcases hstate with ⟨-, rfl⟩ | ⟨-, rfl⟩ <;> simp)
  | connected e hcall => exact h.connect hcall _
  | answered e hcall => exact h.answer hcall _
  | muted isMuted hcall => exact h.mute hcall _ _
  | videoSet e hasLocalVideo hcall => exact h.setVideo hcall _ _
  | application => exact h.setBackground _
  | answerReceived => exact h.sendPending
  | buffered => exact h.buffer _
  | sent => exact h.send _
  | ended ht => exact ht.wellFormed h

end Session
end SignalIOS.Call
