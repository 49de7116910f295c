import SignalIOS.Call.Refinement
import SignalIOS.Call.SignalingQueue

/-! The isolation of peer connection clients: what is still on the way from a client that is not
the current one any more reaches nobody. -/
namespace SignalIOS.Call
open SignalIOS.Lib

namespace Session
variable {S S' : Session} {e : Event} {i : Input} {c : ClientRef}

/-- What a turn does to the clients: it only ever makes new ones current, and terminates the
current one only. -/
structure KeepsClients (S S' : Session) : Prop where
  next_le : S.clients.next ≤ S'.clients.next
  current : ∀ c, S'.client = some c → S.client = some c ∨ S.clients.next ≤ c
  terminated : ∀ c < S.clients.next, (S'.clients.get c).terminated = (S.clients.get c).terminated ∨
    S.client = some c ∧ (S'.clients.get c).terminated = true
  new : ∀ c, S.clients.next ≤ c → c < S'.clients.next → (S'.clients.get c).terminated = false

theorem keepsClients_of_same (hnext : S'.clients.next = S.clients.next)
    (hterminated : ∀ c, (S'.clients.get c).terminated = (S.clients.get c).terminated)
    (hcurrent : S'.client = S.client) : S.KeepsClients S' where
  next_le := Nat.le_of_eq hnext.symm
  current c hc := .inl (hcurrent ▸ hc)
  terminated c _ := .inl (hterminated c)
  new c hle hlt := by omega

theorem keepsClients_of_forClient {f : PeerConnectionClient → PeerConnectionClient}
    (hclients : S'.clients = S.forClient f) (hf : ∀ k, (f k).terminated = k.terminated)
    (hcurrent : S'.client = S.client) : S.KeepsClients S' := by
  apply keepsClients_of_same
  · rw [hclients, WellFormed.next_forClient]
  · intro c
    rw [hclients, WellFormed.forClient_proj PeerConnectionClient.terminated S f hf]
  · exact hcurrent

/-- The current client is terminated, if there is one. -/
theorem keepsClients_of_terminated {f : PeerConnectionClient → PeerConnectionClient}
    (hclients : S'.clients = S.forClient f) (hf : ∀ k, (f k).terminated = true)
    (hcurrent : S'.client = none) : S.KeepsClients S' where
  next_le := Nat.le_of_eq (by rw [hclients, WellFormed.next_forClient])
  current c hc := by rw [hcurrent] at hc; cases hc
  terminated c _ := by
    rw [hclients, forClient]
    cases hclient : S.client with
    | none => exact .inl rfl
    | some d =>
      simp only [Heap.get_modify]
      split_ifs with hd
      · exact .inr ⟨by rw [hd], hf _⟩
      · exact .inl rfl
  new c hle hlt := by
    rw [hclients, WellFormed.next_forClient] at hlt
    omega

theorem keepsClients_of_alloc {k : PeerConnectionClient} (hclients : S'.clients = S.clients.alloc k)
    (hk : k.terminated = false) (hcurrent : S'.client = some S.clients.next) :
    S.KeepsClients S' where
  next_le := by
    rw [hclients]
    exact Nat.le_succ _
  current c hc := .inr (Nat.le_of_eq (Option.some.inj (hcurrent.symm.trans hc)))
  terminated c hc := .inl (by rw [hclients, Heap.get_alloc_of_lt _ _ hc])
  new c hle hlt := by
    rw [hclients, Heap.next_alloc] at hlt
    obtain rfl : c = S.clients.next := by omega
    rw [hclients, Heap.get_alloc_self, hk]

theorem Ending.keepsClients (ht : S.Ending e i S') : S.KeepsClients S' := by
  cases ht with
  | missed => exact keepsClients_of_terminated rfl (fun _ => rfl) rfl
  | _ => exact keepsClients_of_terminated rfl (fun _ => rfl) rfl

theorem Aside.keepsClients (ht : S.Aside e S') : S.KeepsClients S' := by
  cases ht <;> exact keepsClients_of_same rfl (fun _ => rfl) rfl

theorem Turn.keepsClients (ht : S.Turn e i S') : S.KeepsClients S' := by
  have hmodify {d : ClientRef} {f : PeerConnectionClient → PeerConnectionClient}
      (hclients : S'.clients = S.clients.modify d f) (hf : ∀ k, (f k).terminated = k.terminated)
      (hcurrent : S'.client = S.client) : S.KeepsClients S' := by
    exact keepsClients_of_same (by rw [hclients, Heap.next_modify])
      (Heap.proj_of_eq_modify PeerConnectionClient.terminated hclients hf) hcurrent
  cases ht with
  | ended h => exact h.keepsClients
  | aside h => exact h.keepsClients
  | madeOutgoing | madeIncoming => exact keepsClients_of_alloc rfl rfl rfl
  | placed | placedStale | offered | rang =>
    exact keepsClients_of_forClient rfl (fun _ => rfl) rfl
  | connected | answered | videoSet => exact hmodify rfl (fun _ => rfl) rfl
  | muted => exact hmodify (mute_clients _ _ _ _) (fun _ => rfl) rfl
  | application e inBackground =>
    cases hcall : S.call with
    | none =>
      refine keepsClients_of_same ?_ (fun c => ?_) rfl
      · simp [setBackground, hcall]
      · simp [setBackground, hcall]
    | some d =>
      refine keepsClients_of_forClient (f := requestVideo ({ S with inBackground } : Session).video)
        ?_ (fun _ => rfl) rfl
      simp [setBackground, hcall, forClient]
  | _ => exact keepsClients_of_same rfl (fun _ => rfl) rfl

end Session
/-- An event of another client than the current one is obsolete. -/
theorem State.clientEvent_of_ne {s : State} {client : ClientRef}
    (h : s.peerConnectionClient ≠ some client) (event : ClientEvent) :
    s.clientEvent client event = s := by
  cases event <;> exact if_neg h

namespace Queues
variable {q q' : Queues} {event : QueueEvent} {client c : ClientRef}

/-- The blocks of `client` that wait on the main queue. -/
def pending (q : Queues) (client : ClientRef) : List (ClientRef × DelegateBlock) :=
  q.mainQueue.filter (·.1 = client)

/-! ### The signaling queue -/

/-- The call service is the same, and a client without a connection has the same blocks on the
main queue, and still no connection. -/
structure Quiet (q q' : Queues) : Prop where
  callService : q'.callService = q.callService
  closed : ∀ c, (q.connections c).peerConnection = false →
    (q'.connections c).peerConnection = false ∧ q'.pending c = q.pending c

theorem Quiet.refl (q : Queues) : Quiet q q := ⟨rfl, fun _ hc => ⟨hc, rfl⟩⟩

theorem Quiet.trans {q'' : Queues} (h : Quiet q q') (h' : Quiet q' q'') : Quiet q q'' := by
  refine ⟨h'.callService.trans h.callService, fun c hc => ?_⟩
  obtain ⟨hclosed, hpending⟩ := h.closed c hc
  obtain ⟨hclosed', hpending'⟩ := h'.closed c hclosed
  exact ⟨hclosed', hpending'.trans hpending⟩

theorem quiet_notify (hopen : (q.connections client).peerConnection = true)
    (block : DelegateBlock) : Quiet q (q.notify client block) := by
  unfold notify
  split_ifs
  · refine ⟨rfl, fun c hc => ⟨hc, ?_⟩⟩
    have hne : client ≠ c := by
      rintro rfl
      rw [hopen] at hc
      cases hc
    simp [pending, hne]
  · exact .refl q

theorem quiet_setConnection (hopen : (q.connections client).peerConnection = true)
    (connection : Connection) : Quiet q (q.setConnection client connection) := by
  refine ⟨rfl, fun c hc => ⟨?_, rfl⟩⟩
  have hne : c ≠ client := by
    rintro rfl
    rw [hopen] at hc
    cases hc
  simpa [setConnection, hne] using hc

theorem quiet_runCallback (hopen : (q.connections client).peerConnection = true)
    (callback : RTCCallback) : Quiet q (q.runCallback client callback) := by
  cases callback with
  | didReceiveMessage message =>
    cases message with
    | none => exact .refl q
    | some message => exact quiet_notify hopen _
  | didAddStream videoTracks => exact quiet_notify hopen _
  | didChangeIceConnectionState newState =>
    cases newState with
    | connected | completed | failed => exact quiet_notify hopen _
    | _ => exact .refl q
  | didGenerate candidate => exact quiet_notify hopen _
  | didOpen => exact quiet_setConnection hopen _

theorem quiet_runBlock (q : Queues) (client : ClientRef) (block : SignalingBlock) :
    Quiet q (q.runBlock client block) := by
  unfold runBlock
  split_ifs with hopen
  · cases block with
    | callback callback => exact quiet_runCallback hopen callback
    | request request =>
      cases request with
      | setLocalVideoEnabled enabled =>
        dsimp only
        cases (q.connections client).localVideoTrack with
        | none => exact .refl q
        | some videoTrack => exact quiet_notify hopen _
      | other => exact .refl q
  · exact .refl q

theorem quiet_drain (q : Queues) : Quiet q q.drain := by
  unfold drain
  have hfold (blocks : List (ClientRef × SignalingBlock)) (q' : Queues) (h : Quiet q q') :
      Quiet q (blocks.foldl (fun q b => q.runBlock b.1 b.2) q') := by
    induction blocks generalizing q' with
    | nil => exact h
    | cons b blocks ih => exact ih _ (h.trans (quiet_runBlock q' b.1 b.2))
  exact hfold _ _ ⟨rfl, fun _ hc => ⟨hc, rfl⟩⟩

theorem quiet_terminate (q : Queues) (client : ClientRef) : Quiet q (q.terminate client) := by
  refine (quiet_drain q).trans ⟨rfl, fun c hc => ⟨?_, rfl⟩⟩
  by_cases hne : c = client
  · simp [terminate, setConnection, hne, Connection.closed]
  · simpa [terminate, setConnection, hne] using hc

theorem closed_terminate (q : Queues) (client : ClientRef) :
    ((q.terminate client).connections client).peerConnection = false := by
  simp [terminate, setConnection, Connection.closed]

theorem quiet_callback (q : Queues) (client : ClientRef) (callback : RTCCallback) :
    Quiet q (q.callback client callback) := by
  have hasync (q : Queues) (block : SignalingBlock) : Quiet q (q.async client block) :=
    ⟨rfl, fun _ hc => ⟨hc, rfl⟩⟩
  cases callback with
  | didAddStream videoTracks =>
    cases videoTracks with
    | nil => exact .refl q
    | cons videoTrack videoTracks =>
      unfold Queues.callback
      dsimp only
      split_ifs with hopen
      · exact (quiet_setConnection hopen _).trans (hasync _ _)
      · exact hasync _ _
  | _ => exact hasync _ _

/-! ### Turns of the main queue -/

theorem quiet_mainTurn (q : Queues) (s : State) (requests : Requests) :
    Quiet (q.post s requests) (q.mainTurn s requests) := by
  unfold mainTurn
  cases q.callService.peerConnectionClient with
  | none => exact .refl _
  | some client =>
    dsimp only
    split_ifs
    · exact quiet_terminate _ client
    · exact .refl _

theorem callService_mainTurn (q : Queues) (s : State) (requests : Requests) :
    (q.mainTurn s requests).callService = s :=
  (quiet_mainTurn q s requests).callService

/-- A turn posts nothing of an old client without a connection. -/
theorem closed_mainTurn {s : State} (hc : c < q.callService.clients.next)
    (hclosed : (q.connections c).peerConnection = false) (requests : Requests) :
    ((q.mainTurn s requests).connections c).peerConnection = false ∧
      (q.mainTurn s requests).pending c = q.pending c := by
  have hold : (q.post s requests).connections c = q.connections c :=
    if_neg fun h => Nat.lt_irrefl c (Nat.lt_of_lt_of_le hc h.1)
  exact (quiet_mainTurn q s requests).closed c (by rw [hold, hclosed])

theorem closed_of_terminated {s : State} (hclient : q.callService.peerConnectionClient = some c)
    (hterminated : (s.clients.get c).terminated = true) (requests : Requests) :
    ((q.mainTurn s requests).connections c).peerConnection = false := by
  have hturn : q.mainTurn s requests = (q.post s requests).terminate c := by
    simp [mainTurn, hclient, hterminated]
  rw [hturn]
  exact closed_terminate _ c

/-! ### Steps -/

/-- What a step does, for the call service and for its old clients. -/
structure Advances (q q' : Queues) : Prop where
  callService : q'.callService = q.callService ∨
    ∃ e, q.callService.next e = some q'.callService
  closed : ∀ c < q.callService.clients.next, (q.connections c).peerConnection = false →
    (q'.connections c).peerConnection = false ∧ List.Sublist (q'.pending c) (q.pending c)

theorem Quiet.advances (h : Quiet q q') : Advances q q' where
  callService := .inl h.callService
  closed c _ hc := by
    obtain ⟨hclosed, hpending⟩ := h.closed c hc
    exact ⟨hclosed, hpending ▸ .refl _⟩

theorem advances_turn {e : Event} {requests : Requests} (h : q.turn e requests = some q') :
    Advances q q' := by
  obtain ⟨s, hnext, rfl⟩ := Option.map_eq_some_iff.mp h
  refine ⟨.inr ⟨e, by rw [callService_mainTurn, hnext]⟩, fun c hc hclosed => ?_⟩
  obtain ⟨hclosed', hpending⟩ := closed_mainTurn hc hclosed requests
  exact ⟨hclosed', hpending ▸ .refl _⟩

theorem advances_step (h : q.step event = some q') : Advances q q' := by
  cases event with
  | webRTC client callback =>
    simp only [step] at h
    split_ifs at h
    obtain rfl := Option.some.inj h
    exact (quiet_callback q client callback).advances
  | signaling =>
    cases hqueue : q.signalingQueue with
    | nil => simp [step, hqueue] at h
    | cons b rest =>
      simp only [step, hqueue, Option.some.injEq] at h
      subst h
      have hpopped : Quiet q { q with signalingQueue := rest } := ⟨rfl, fun _ hc => ⟨hc, rfl⟩⟩
      exact (hpopped.trans (quiet_runBlock _ b.1 b.2)).advances
  | main isReleased requests =>
    cases hqueue : q.mainQueue with
    | nil => simp [step, hqueue] at h
    | cons b rest =>
      have hpopped (c : ClientRef) :
          List.Sublist ({ q with mainQueue := rest }.pending c) (q.pending c) := by
        unfold pending
        rw [hqueue]
        exact (List.sublist_cons_self b rest).filter _
      simp only [step, hqueue] at h
      split_ifs at h
      · obtain rfl := Option.some.inj h
        exact ⟨.inl rfl, fun c _ hc => ⟨hc, hpopped c⟩⟩
      · have hadvances := advances_turn h
        refine ⟨hadvances.callService, fun c hlt hc => ?_⟩
        obtain ⟨hclosed, hpending⟩ := hadvances.closed c hlt hc
        exact ⟨hclosed, hpending.trans (hpopped c)⟩
  | turn e requests =>
    cases e with
    | client client event => cases h
    | _ => exact advances_turn h

/-- Either the call service is the same, or a turn of it has run. -/
theorem turn_or_same (h : q.step event = some q') :
    q'.callService = q.callService ∨
      ∃ (rest : List (ClientRef × DelegateBlock)) (e : Event) (requests : Requests),
        { q with mainQueue := rest }.turn e requests = some q' := by
  cases event with
  | webRTC client callback =>
    simp only [step] at h
    split_ifs at h
    obtain rfl := Option.some.inj h
    exact .inl (quiet_callback q client callback).callService
  | signaling =>
    cases hqueue : q.signalingQueue with
    | nil => simp [step, hqueue] at h
    | cons b rest =>
      simp only [step, hqueue, Option.some.injEq] at h
      subst h
      exact .inl (quiet_runBlock { q with signalingQueue := rest } b.1 b.2).callService
  | main isReleased requests =>
    cases hqueue : q.mainQueue with
    | nil => simp [step, hqueue] at h
    | cons b rest =>
      simp only [step, hqueue] at h
      split_ifs at h
      · obtain rfl := Option.some.inj h
        exact .inl rfl
      · exact .inr ⟨rest, _, requests, h⟩
  | turn e requests =>
    cases e with
    | client client event => cases h
    | _ => exact .inr ⟨q.mainQueue, _, requests, h⟩

/-! ### Invariants -/

/-- What holds in every run: a terminated client has no connection. -/
structure Sound (q : Queues) : Prop where
  wellFormed : q.callService.core.WellFormed
  closed : ∀ c < q.callService.clients.next, (q.callService.clients.get c).terminated = true →
    (q.connections c).peerConnection = false

theorem sound_initial : initial.Sound where
  wellFormed := Session.WellFormed.initial
  closed _ hc := nomatch hc

theorem Sound.turn (hq : q.Sound) {e : Event} {requests : Requests}
    (h : q.turn e requests = some q') : q'.Sound := by
  obtain ⟨s, hnext, rfl⟩ := Option.map_eq_some_iff.mp h
  have hturn := State.core_next hq.wellFormed hnext
  have hs := callService_mainTurn q s requests
  refine ⟨?_, fun c hc hterminated => ?_⟩
  · rw [hs]
    exact hturn.wellFormed hq.wellFormed
  · rw [hs] at hc hterminated
    have hkeeps := hturn.keepsClients
    by_cases hold : c < q.callService.clients.next
    · rcases hkeeps.terminated c hold with hsame | ⟨hcurrent, -⟩
      · have hbefore := hq.closed c hold (hsame.symm.trans hterminated)
        exact (closed_mainTurn hold hbefore requests).1
      · exact closed_of_terminated hcurrent hterminated requests
    · have hnew : (s.clients.get c).terminated = false :=
        hkeeps.new c (Nat.le_of_not_lt hold) hc
      rw [hnew] at hterminated
      cases hterminated

theorem Sound.step (hq : q.Sound) (h : q.step event = some q') : q'.Sound := by
  rcases turn_or_same h with hsame | ⟨rest, e, requests, hturn⟩
  · refine ⟨hsame ▸ hq.wellFormed, fun c hc hterminated => ?_⟩
    rw [hsame] at hc hterminated
    exact ((advances_step h).closed c hc (hq.closed c hc hterminated)).1
  · have hpopped : Sound { q with mainQueue := rest } := ⟨hq.wellFormed, hq.closed⟩
    exact hpopped.turn hturn

/-- The client has been terminated, or another one has replaced it. -/
def Obsolete (client : ClientRef) (q : Queues) : Prop :=
  client < q.callService.clients.next ∧
    ((q.callService.clients.get client).terminated = true ∨
      q.callService.peerConnectionClient ≠ some client)

def Terminated (client : ClientRef) (q : Queues) : Prop :=
  client < q.callService.clients.next ∧ (q.callService.clients.get client).terminated = true

theorem Obsolete.not_current (h : Obsolete client q) (hq : q.Sound) :
    q.callService.peerConnectionClient ≠ some client := by
  rcases h.2 with hterminated | hother
  · intro hcurrent
    have halive := (hq.wellFormed.client client hcurrent).2
    rw [State.core_clients, hterminated] at halive
    cases halive
  · exact hother

theorem Sound.keepsClients (hq : q.Sound) (h : q.step event = some q')
    (hsame : q'.callService ≠ q.callService) :
    q.callService.core.KeepsClients q'.callService.core := by
  obtain ⟨e, hnext⟩ := (advances_step h).callService.resolve_left hsame
  exact (State.core_next hq.wellFormed hnext).keepsClients

/-- No obsolete client becomes current again. -/
theorem Obsolete.step (hobsolete : Obsolete client q) (hq : q.Sound) (h : q.step event = some q') :
    Obsolete client q' := by
  by_cases hsame : q'.callService = q.callService
  · unfold Obsolete
    rwa [hsame]
  · have hkeeps := hq.keepsClients h hsame
    refine ⟨Nat.lt_of_lt_of_le hobsolete.1 hkeeps.next_le, .inr fun hcurrent => ?_⟩
    rcases hkeeps.current client hcurrent with hbefore | hnew
    · exact hobsolete.not_current hq hbefore
    · exact Nat.lt_irrefl client (Nat.lt_of_lt_of_le hobsolete.1 hnew)

theorem Terminated.step (hterminated : Terminated client q) (hq : q.Sound)
    (h : q.step event = some q') : Terminated client q' := by
  by_cases hsame : q'.callService = q.callService
  · unfold Terminated
    rwa [hsame]
  · have hkeeps := hq.keepsClients h hsame
    refine ⟨Nat.lt_of_lt_of_le hterminated.1 hkeeps.next_le, ?_⟩
    rcases hkeeps.terminated client hterminated.1 with hbefore | ⟨-, hafter⟩
    · exact hbefore.trans hterminated.2
    · exact hafter

end Queues

/-! ### The law -/

/-- The client whose event, or whose block, is next. -/
def QueueEvent.client (q : Queues) : QueueEvent → Option ClientRef
  | .webRTC client _ => some client
  | .signaling => q.signalingQueue.head?.map Prod.fst
  | .main _ _ => q.mainQueue.head?.map Prod.fst
  | .turn _ _ => none

/-- The last event leaves the call service as it was if it belongs to a client that was terminated
or replaced at some time before; and of a client that was terminated before, it leaves no more
blocks for the delegate than there were. -/
def Isolated : History Queues QueueEvent → Prop
  | [] => True
  | (event, q) :: tr =>
    (∀ c, event.client (queueMachine.last tr) = some c →
      queueMachine.Reached (Queues.Obsolete c) tr →
        q.callService = (queueMachine.last tr).callService) ∧
    ∀ c, queueMachine.Reached (Queues.Terminated c) tr →
      List.Sublist (q.pending c) ((queueMachine.last tr).pending c)

theorem queues_sound {tr : History Queues QueueEvent} (h : queueMachine.Run tr) :
    (queueMachine.last tr).Sound :=
  h.state_invariant (I := Queues.Sound) Queues.sound_initial fun _ _ _ hq hstep => hq.step hstep

/-- The delegate methods of the call service ignore what an obsolete client tells them. -/
theorem Queues.step_of_obsolete {q q' : Queues} {event : QueueEvent} {c : ClientRef} (hq : q.Sound)
    (h : q.step event = some q') (hc : event.client q = some c) (hobsolete : Obsolete c q) :
    q'.callService = q.callService := by
  cases event with
  | webRTC client callback =>
    simp only [step] at h
    split_ifs at h
    obtain rfl := Option.some.inj h
    exact (quiet_callback q client callback).callService
  | signaling =>
    cases hqueue : q.signalingQueue with
    | nil => simp [step, hqueue] at h
    | cons b rest =>
      simp only [step, hqueue, Option.some.injEq] at h
      subst h
      exact (quiet_runBlock { q with signalingQueue := rest } b.1 b.2).callService
  | main isReleased requests =>
    cases hqueue : q.mainQueue with
    | nil => simp [step, hqueue] at h
    | cons b rest =>
      obtain ⟨client, block⟩ := b
      have hclient : client = c := by simpa [QueueEvent.client, hqueue] using hc
      have hother : q.callService.peerConnectionClient ≠ some client :=
        hclient ▸ hobsolete.not_current hq
      simp only [step, hqueue] at h
      split_ifs at h
      · obtain rfl := Option.some.inj h
        rfl
      · obtain ⟨s, hnext, rfl⟩ := Option.map_eq_some_iff.mp h
        have hsame : q.callService = s := by
          rw [← State.clientEvent_of_ne hother (block.event (q.connections client))]
          exact Option.some.inj hnext
        rw [callService_mainTurn, hsame]
  | turn e requests => cases hc

/-- In every run, the call service is isolated from its former clients. -/
theorem isolated_of_run {tr : History Queues QueueEvent} (h : queueMachine.Run tr) :
    Machine.Always Isolated tr := by
  induction tr with
  | nil => trivial
  | cons p tr ih =>
    obtain ⟨hrun, hstep⟩ := h
    have hq := queues_sound hrun
    refine ⟨⟨fun c hc hreached => ?_, fun c hreached => ?_⟩, ih hrun⟩
    · have hobsolete := hrun.of_reached
        (fun _ _ _ hrun hobsolete hstep => hobsolete.step (queues_sound hrun) hstep) hreached
      exact Queues.step_of_obsolete hq hstep hc hobsolete
    · have hterminated := hrun.of_reached
        (fun _ _ _ hrun hterminated hstep => hterminated.step (queues_sound hrun) hstep) hreached
      have hclosed := hq.closed c hterminated.1 hterminated.2
      exact ((Queues.advances_step hstep).closed c hterminated.1 hclosed).2

/-- The last candidate of a client is still on its way when the user hangs up and a new call,
with a client of its own, has begun. -/
def lateCandidate : List QueueEvent :=
  [.turn (.user (.newOutgoingCall "+15550001" 7)) ⟨[], 0⟩,
    .turn (.user (.handleOutgoingCall 0)) ⟨[], 0⟩,
    .turn (.continuation 0 (.iceServers (.ok ⟨"password", "username", []⟩))) ⟨[], 1⟩,
    .webRTC 0 (.didGenerate ⟨"candidate", 0, "audio"⟩), .signaling,
    .webRTC 0 (.didChangeIceConnectionState .failed),
    .turn (.user (.handleLocalHungupCall 0)) ⟨[(0, .setLocalVideoEnabled false)], 0⟩,
    .turn (.receivedOffer 8 "offer" "+15550002" false) ⟨[], 0⟩,
    .turn (.continuation 1 (.iceServers (.ok ⟨"password", "username", []⟩))) ⟨[], 2⟩,
    .main false ⟨[], 0⟩]

theorem isolated_of_lateCandidate :
    ∃ tr, queueMachine.exec lateCandidate = some tr ∧ Machine.Always Isolated tr ∧
      (queueMachine.last tr).callService.peerConnectionClient = some 1 ∧
      ((queueMachine.last tr).pending 0).map Prod.snd = [.iceFailed, .didUpdateLocal none] := by
  have hexec : (queueMachine.exec lateCandidate).map (fun tr =>
      ((queueMachine.last tr).callService.peerConnectionClient,
        ((queueMachine.last tr).pending 0).map Prod.snd)) =
      some (some 1, [.iceFailed, .didUpdateLocal none]) := by rfl
  obtain ⟨tr, htr, hget⟩ := Option.map_eq_some_iff.mp hexec
  obtain ⟨hclient, hpending⟩ := Prod.mk.inj hget
  exact ⟨tr, htr, isolated_of_run (Machine.run_of_exec htr), hclient, hpending⟩

end SignalIOS.Call
