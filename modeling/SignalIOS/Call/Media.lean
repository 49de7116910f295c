import SignalIOS.Call.Occurrences

/-! The audio and video requests made to the current client. -/
namespace SignalIOS.Call
open SignalIOS.Lib

namespace Session
variable {S S' : Session} {e : Event} {i : Input}

/-- The audio of the current client is on only in a connected call that is not muted. -/
def MicrophoneSafe (S : Session) : Prop :=
  ∀ client, S.client = some client → (S.clients.get client).audioEnabled = some true →
    ∃ c, S.call = some c ∧ (S.calls.get c).state = .connected ∧ (S.calls.get c).isMuted = false

theorem SameCurrent.microphoneSafe (hsame : S.SameCurrent S') (h : S.MicrophoneSafe) :
    S'.MicrophoneSafe := by
  intro client hclient haudio
  rw [hsame.client] at hclient
  rw [hsame.clients] at haudio
  obtain ⟨c, hcall, hc⟩ := h client hclient haudio
  exact ⟨c, hsame.call.trans hcall, by rwa [hsame.calls c hcall]⟩

theorem forClient_audioEnabled (S : Session) (enabled : Bool) (client : ClientRef) :
    ((S.forClient (requestVideo enabled)).get client).audioEnabled =
      (S.clients.get client).audioEnabled :=
  WellFormed.forClient_proj PeerConnectionClient.audioEnabled S (requestVideo enabled)
    (fun _ => rfl) client

theorem syncVideo_audioEnabled (S : Session) (client : ClientRef) :
    (S.syncVideo.clients.get client).audioEnabled = (S.clients.get client).audioEnabled := by
  rw [syncVideo_clients]
  split
  · rfl
  · exact forClient_audioEnabled S _ client

theorem Turn.microphoneSafe (ht : S.Turn e i S') (hS : S.WellFormed) (h : S.MicrophoneSafe)
    (hmute : e = .user (.setIsMuted false) → ∀ c client, S.call = some c →
      S.client = some client → (S.calls.get c).state = .connected) : S'.MicrophoneSafe := by
  cases ht with
  | idle | answerReceived | buffered | sent => exact h
  | aside ht => exact (ht.sameCurrent hS).microphoneSafe h
  | ended ht =>
    intro client hclient
    rw [ht.quiet.client] at hclient
    cases hclient
  | placed hc hcall hclient =>
    intro client hclient'
    cases hclient.symm.trans hclient'
  | placedStale hc hcall | offered _ _ _ hcall =>
    intro client hclient haudio
    have haudio := (forClient_audioEnabled S false client).symm.trans haudio
    obtain ⟨d, hd, -⟩ := h client hclient haudio
    exact nomatch hcall.symm.trans hd
  | madeOutgoing | madeIncoming =>
    intro client hclient haudio
    obtain rfl : S.clients.next = client := Option.some.inj hclient
    simp at haudio
  | rang e hcall hstate =>
    intro client hclient haudio
    have haudio := (forClient_audioEnabled S false client).symm.trans haudio
    obtain ⟨d, hd, hconnected, -⟩ := h client hclient haudio
    obtain rfl := Option.some.inj (hcall.symm.trans hd)
    rcases hstate with ⟨hstate, -⟩ | ⟨hstate, -⟩ <;> simp [hstate] at hconnected
  | @connected e c k hcall hclient =>
    intro client hclient' haudio
    obtain rfl := Option.some.inj (hclient.symm.trans hclient')
    refine ⟨c, hcall, by simp, ?_⟩
    simpa [connectClient] using haudio
  | @answered e c k hcall hclient =>
    intro client hclient' haudio
    obtain rfl := Option.some.inj (hclient.symm.trans hclient')
    refine ⟨c, hcall, by simp, ?_⟩
    simpa [connectClient] using haudio
  | @muted isMuted c k hcall hclient =>
    intro client hclient' haudio
    obtain rfl := Option.some.inj (hclient.symm.trans hclient')
    obtain rfl : isMuted = false := by simpa using haudio
    exact ⟨c, hcall, by simpa using hmute rfl c k hcall hclient, by simp⟩
  | @videoSet e hasLocalVideo c k hcall hclient =>
    intro client hclient' haudio
    obtain rfl := Option.some.inj (hclient.symm.trans hclient')
    rw [setVideo_clients, Heap.get_modify_self] at haudio
    obtain ⟨d, hd, hconnected, hmuted⟩ := h k hclient haudio
    obtain rfl := Option.some.inj (hcall.symm.trans hd)
    exact ⟨c, hcall, by simpa using hconnected, by simpa using hmuted⟩
  | application e inBackground =>
    intro client hclient haudio
    exact h client hclient
          ((syncVideo_audioEnabled { S with inBackground } client).symm.trans haudio)

/-! ### Local video -/

/-- The application is in the foreground, and the current call is connected and has video. -/
def WantsVideo (S : Session) : Prop :=
  S.inBackground = false ∧ ∃ c, S.call = some c ∧ (S.calls.get c).state = .connected ∧
    (S.calls.get c).hasLocalVideo = true

/-- The last request made to the current client is to send video if and only if video is wanted. -/
def VideoInStep (S : Session) : Prop :=
  ∀ client, S.client = some client →
    ((S.clients.get client).localVideoEnabled = some true ↔ S.WantsVideo)

theorem video_iff (S : Session) : S.video = true ↔ S.WantsVideo := by
  unfold video WantsVideo
  cases S.call <;> simp

/-- The turn makes a new client, in the set-up chain of `c`. -/
def MakesClient (S : Session) (c : CallRef) (e : Event) : Prop :=
  ∃ result, e = .continuation c (.iceServers result) ∧
    (S.setUp c = .iceServers none ∨ ∃ sdp, S.setUp c = .iceServers (some sdp) ∧ S.call = some c)

theorem SameCurrent.wantsVideo (hsame : S.SameCurrent S') : S'.WantsVideo ↔ S.WantsVideo := by
  unfold WantsVideo
  rw [hsame.inBackground, hsame.call]
  refine and_congr_right' (exists_congr fun c => and_congr_right fun hcall => ?_)
  rw [hsame.calls c hcall]

theorem SameCurrent.videoInStep (hsame : S.SameCurrent S') (h : S.VideoInStep) :
    S'.VideoInStep := by
  intro client hclient
  rw [hsame.client] at hclient
  rw [hsame.clients, hsame.wantsVideo]
  exact h client hclient

theorem forClient_localVideoEnabled {client : ClientRef} (hclient : S.client = some client)
    (enabled : Bool) :
    ((S.forClient (requestVideo enabled)).get client).localVideoEnabled = some enabled := by
  simp [forClient, hclient]

/-- A call that has just begun or rings does not want video, and none is requested. -/
theorem videoInStep_of_not_connected {c : CallRef} {client : ClientRef} (hcall : S.call = some c)
    (hstate : (S.calls.get c).state ≠ .connected)
    (hvideo : (S.clients.get client).localVideoEnabled = some false) :
    (S.clients.get client).localVideoEnabled = some true ↔ S.WantsVideo := by
  rw [hvideo]
  refine iff_of_false (by simp) ?_
  rintro ⟨-, d, hd, hconnected, -⟩
  exact hstate (Option.some.inj (hcall.symm.trans hd) ▸ hconnected)

theorem Turn.videoInStep (ht : S.Turn e i S') (hS : S.WellFormed) (h : S.VideoInStep)
    (hmade : ∀ c, S.MakesClient c e → ¬ S.WantsVideo) : S'.VideoInStep := by
  cases ht with
  | idle | answerReceived | buffered | sent => exact h
  | aside ht => exact (ht.sameCurrent hS).videoInStep h
  | ended ht =>
    intro client hclient
    rw [ht.quiet.client] at hclient
    exact nomatch hclient
  | placed hc hcall hclient => exact fun client hclient' => nomatch hclient.symm.trans hclient'
  | placedStale hc hcall =>
    intro client hclient
    exact videoInStep_of_not_connected rfl (by simp)
      (forClient_localVideoEnabled (S := S) hclient false)
  | offered =>
    intro client hclient
    exact videoInStep_of_not_connected rfl (by simp [SignalCall.incomingCall])
      (forClient_localVideoEnabled (S := S) hclient false)
  | @madeOutgoing c result hc =>
    intro client hclient
    obtain rfl : S.clients.next = client := Option.some.inj hclient
    exact iff_of_false (by simp) (hmade c ⟨result, rfl, .inl hc⟩)
  | @madeIncoming c result sdp hc hcall =>
    intro client hclient
    obtain rfl : S.clients.next = client := Option.some.inj hclient
    exact iff_of_false (by simp) (hmade c ⟨result, rfl, .inr ⟨sdp, hc, hcall⟩⟩)
  | rang e hcall hstate =>
    intro client hclient
    refine videoInStep_of_not_connected hcall ?_
      (forClient_localVideoEnabled (S := S) hclient false)
    rcases hstate with ⟨-, rfl⟩ | ⟨-, rfl⟩ <;> simp
  | @connected e c k hcall hclient =>
    intro client hclient'
    obtain rfl := Option.some.inj (hclient.symm.trans hclient')
    rw [← video_iff]
    simp [connectClient, video, hcall]
  | @answered e c k hcall hclient =>
    intro client hclient'
    obtain rfl := Option.some.inj (hclient.symm.trans hclient')
    rw [← video_iff]
    simp [connectClient, video, hcall]
  | @muted isMuted c k hcall hclient =>
    intro client hclient'
    obtain rfl := Option.some.inj (hclient.symm.trans hclient')
    have hvideo := h k hclient
    rw [← video_iff] at hvideo ⊢
    simpa [video, hcall] using hvideo
  | @videoSet e hasLocalVideo c k hcall hclient =>
    intro client hclient'
    obtain rfl := Option.some.inj (hclient.symm.trans hclient')
    rw [← video_iff]
    simp [video, hcall]
  | application e inBackground =>
    intro client hclient
    have hvideo : (S.setBackground inBackground).WantsVideo ↔
        ({ S with inBackground } : Session).video = true := (video_iff { S with inBackground }).symm
    rw [hvideo]
    cases hcall : S.call with
    | none =>
      have hnone : ¬ S.WantsVideo := by
        rintro ⟨-, c, hc, -⟩
        cases hcall.symm.trans hc
      have hold := h client hclient
      simpa [setBackground, syncVideo, video, hcall, hnone] using hold
    | some c =>
      have hget := forClient_localVideoEnabled (S := { S with inBackground }) hclient
        ({ S with inBackground } : Session).video
      simp only [setBackground, syncVideo_clients, hcall] at hget ⊢
      simp [hget]

end Session

/-- Unmuting needs a connected call. -/
def UnmutesConnected (tr : Trace) (e : Event) : Prop :=
  e = .user (.setIsMuted false) → ∀ c client, (callMachine.last tr).call = some c →
    (callMachine.last tr).peerConnectionClient = some client →
    ((callMachine.last tr).calls.get c).state = .connected

theorem microphoneSafe_iff {tr : Trace} (h : callMachine.Run tr) :
    Machine.Always (fun tr => (callMachine.last tr).core.MicrophoneSafe) tr ↔
      Machine.Guarded UnmutesConnected tr := by
  refine h.always_iff_guarded (fun client hclient => nomatch hclient)
    fun tr e s hrun hP hstep => ?_
  refine ⟨fun hsafe => ?_, (turn_of_run hrun hstep).microphoneSafe (wellFormed_of_run hrun) hP⟩
  rintro rfl c client hcall hclient
  have hs : s = ((callMachine.last tr).setCallIsMuted c false).setAudioEnabled client true := by
    have hmuted : (callMachine.last tr).setIsMuted false = s := Option.some.inj hstep
    simp only [State.setIsMuted, hclient, hcall] at hmuted
    exact hmuted.symm
  obtain ⟨d, hd, hconnected, -⟩ := hsafe client (hs ▸ hclient) (by simp [hs, State.setAudioEnabled])
  rw [Machine.last_cons, hs] at hd hconnected
  obtain rfl := Option.some.inj (hcall.symm.trans hd)
  simpa [State.setAudioEnabled, State.setCallIsMuted] using hconnected

/-- The user mutes and unmutes an outgoing call that is still dialing. -/
def unmutedDialing : List Event :=
  [.user (.newOutgoingCall "+15550001" 7), .user (.handleOutgoingCall 0),
    .continuation 0 (.iceServers (.ok ⟨"password", "username", []⟩)), .user (.setIsMuted true),
    .user (.setIsMuted false)]

theorem microphoneSafe_counterexample :
    ∃ tr, callMachine.exec unmutedDialing = some tr ∧ callMachine.Run tr ∧
      ¬ (callMachine.last tr).core.MicrophoneSafe := by
  have hexec : (callMachine.exec unmutedDialing).map (fun tr => let s := callMachine.last tr
      (s.peerConnectionClient, (s.clients.get 0).audioEnabled, s.call, (s.calls.get 0).state)) =
      some (some 0, some true, some 0, .dialing) := by rfl
  obtain ⟨tr, htr, hget⟩ := Option.map_eq_some_iff.mp hexec
  simp only [Prod.mk.injEq] at hget
  obtain ⟨hclient, haudio, hcall, hstate⟩ := hget
  refine ⟨tr, htr, Machine.run_of_exec htr, fun h => ?_⟩
  obtain ⟨c, hc, hconnected, -⟩ := h 0 hclient haudio
  obtain rfl := Option.some.inj (hcall.symm.trans hc)
  exact nomatch hstate.symm.trans hconnected

theorem microphoneSafe_iff_of_unmutedDialing :
    ∃ tr, callMachine.exec unmutedDialing = some tr ∧
      (Machine.Always (fun tr => (callMachine.last tr).core.MicrophoneSafe) tr ↔
        Machine.Guarded UnmutesConnected tr) := by
  have hexec : (callMachine.exec unmutedDialing).isSome := by rfl
  obtain ⟨tr, htr⟩ := Option.isSome_iff_exists.mp hexec
  exact ⟨tr, htr, microphoneSafe_iff (Machine.run_of_exec htr)⟩

/-- No new client is made while the current client has video to send. -/
def MakesNoClientInVideo (tr : Trace) (e : Event) : Prop :=
  ∀ c, (callMachine.last tr).core.MakesClient c e → ¬ (callMachine.last tr).core.WantsVideo

theorem core_makesClient {s s' : State} {c : CallRef} {e : Event} (hmakes : s.core.MakesClient c e)
    (hstep : s.next e = some s') :
    ∃ client stage, s'.core = s.core.makeClient c client stage ∧
      client.localVideoEnabled = none := by
  obtain ⟨result, rfl, hsetUp | ⟨sdp, hsetUp, hcall⟩⟩ := hmakes
  · rw [State.next_outgoingIceServers hsetUp hstep]
    exact ⟨⟨getIceServers result, .outgoing, none, none, false⟩, .offer, rfl, rfl⟩
  · rw [State.core_call] at hcall
    rw [State.next_incomingIceServers hsetUp hstep, State.incomingIceServers, State.guardCurrent,
      if_pos hcall, State.core_setSetUp, State.core_emit _ rfl rfl]
    exact ⟨⟨getIceServers result, .incoming, none, none, false⟩, .negotiation, rfl, rfl⟩

/-- A first call is hung up before it has its ICE servers. They arrive in a later video call. -/
def lateIceServers : List Event :=
  [.user (.newOutgoingCall "+15550001" 5), .user (.handleOutgoingCall 0),
    .user (.handleLocalHungupCall 0), .receivedOffer 7 "offer" "+15550002" false,
    .continuation 1 (.iceServers (.ok ⟨"password", "username", []⟩)),
    .continuation 1 (.negotiated "answer"), .continuation 1 .sent, .client 0 .iceConnected,
    .user (.handleAnswerCall 1), .user (.setHasLocalVideo true true),
    .continuation 0 (.iceServers (.ok ⟨"password", "username", []⟩))]

end SignalIOS.Call
