import SignalIOS.Zrtp.HandshakeNetwork
import SignalIOS.Zrtp.ResponderProgress

/-! Along a handshake either role makes the progress that it makes by itself: its manager sends
what the role answers, and that over and over. -/
namespace SignalIOS.Zrtp
open SignalIOS.Lib SignalIOS.Rtp

namespace ZrtpRole
variable [CryptoTools]

def Progress (isInitiator : Bool) (made : KeyAgreementParticipant → Prop)
    (received sent : HandshakePacket → Prop) : ZrtpRole → Prop
  | initiator role => isInitiator = true ∧ role.Progress made received sent
  | responder role => isInitiator = false ∧ role.Progress made received sent

variable {isInitiator : Bool} {made : KeyAgreementParticipant → Prop}
  {received received' sent sent' : HandshakePacket → Prop} {role : ZrtpRole}
  {environment : Environment} {newKeys : NewKeys} {packet : HandshakePacket}

theorem Progress.mono (h : role.Progress isInitiator made received sent)
    (hr : ∀ p, received p → received' p) (hs : ∀ p, sent' p → sent p) :
    role.Progress isInitiator made received' sent' := by
  cases role with
  | initiator role => exact ⟨h.1, h.2.mono hr hs⟩
  | responder role => exact ⟨h.1, h.2.mono hr hs⟩

/-- With the response, if there is one, added to what has been sent. -/
theorem handlePacket_progress (hnewKeys : newKeys.Make made)
    (h : role.Progress isInitiator made received sent) (hpacket : received packet) :
    (role.handlePacket environment newKeys packet).2.Progress isInitiator made received fun p =>
      sent p ∨ (role.handlePacket environment newKeys packet).1 = .ok (some p) := by
  have hanswered {response : Option HandshakePacket} {p : HandshakePacket}
      (hp : sent p ∨ (.ok response : Except Exception _) = .ok (some p)) :
      SentWith sent response p := hp.imp_right Except.ok.inj
  have hraised {exception : Exception} {p : HandshakePacket}
      (hp : sent p ∨ (.error exception : Except Exception _) = .ok (some p)) : sent p := by
    rcases hp with hp | hp
    · exact hp
    · cases hp
  cases role with
  | initiator role =>
    exact ⟨h.1, (ZrtpInitiator.handlePacket_progress hnewKeys h.2 hpacket).run_eq
      (P := fun result t => t.Progress made received fun p => sent p ∨ result = .ok (some p))
      (fun _ _ ht => ht.mono (fun _ => id) fun _ => hanswered)
      fun _ _ ht => ht.mono (fun _ => id) fun _ => hraised⟩
  | responder role =>
    exact ⟨h.1, (ZrtpResponder.handlePacket_progress hnewKeys h.2 hpacket).run_eq
      (P := fun result t => t.Progress made received fun p => sent p ∨ result = .ok (some p))
      (fun _ _ ht => ht.mono (fun _ => id) fun _ => hanswered)
      fun _ _ ht => ht.mono (fun _ => id) fun _ => hraised⟩

end ZrtpRole

namespace ZrtpManager

/-- What has been sent, and what is to be sent again. -/
def Sends (s : ZrtpManager) (p : HandshakePacket) : Prop :=
  p ∈ s.handshakeSocket ∨ s.currentPacketToRetransmit = some p

/-- From `s` to `t` the role has done nothing, and nothing new has been sent. -/
structure Resends (s t : ZrtpManager) : Prop where
  zrtpRole_eq : t.zrtpRole = s.zrtpRole
  sent_of_sent : ∀ p, p ∈ s.handshakeSocket → p ∈ t.handshakeSocket
  sends_of_sends : ∀ p, t.Sends p → s.Sends p

/-- Nothing has been sent at all. -/
theorem Resends.of_eq {s t : ZrtpManager} (hrole : t.zrtpRole = s.zrtpRole)
    (hsocket : t.handshakeSocket = s.handshakeSocket)
    (hcurrent : t.currentPacketToRetransmit = s.currentPacketToRetransmit) : Resends s t where
  zrtpRole_eq := hrole
  sent_of_sent p hp := hsocket ▸ hp
  sends_of_sends p hp := by rwa [Sends, hsocket, hcurrent] at hp

theorem transmit_resends (s : ZrtpManager) :
    Resends s { s with handshakeSocket := s.handshakeSocket ++ s.currentPacketToRetransmit.toList }
    where
  zrtpRole_eq := rfl
  sent_of_sent p hp := List.mem_append_left _ hp
  sends_of_sends p hp := by
    rcases hp with hp | hp
    · exact (List.mem_append.mp hp).imp_right Option.mem_toList.mp
    · exact .inr hp

/-- What holds of a manager whatever it sends again. -/
def KeptByResending (I : ZrtpManager → Prop) : Prop := ∀ s t, I s → Resends s t → I t

section
variable {I : ZrtpManager → Prop} {s : ZrtpManager}

theorem trySetFailure_leaves (hI : KeptByResending I) (failure : HandshakeFailure) (h : I s) :
    (trySetFailure failure).Leaves s I := by
  refine hI s _ h ?_
  dsimp only
  split
  · exact .of_eq rfl rfl rfl
  · exact .of_eq rfl rfl rfl

theorem trySetResult_leaves (hI : KeptByResending I) (result : ZrtpHandshakeResult) (h : I s) :
    (trySetResult result).Leaves s I := by
  refine hI s _ h ?_
  dsimp only
  split
  · exact .of_eq rfl rfl rfl
  · exact .of_eq rfl rfl rfl

theorem transmitCurrentHandshakePacket_leaves (hI : KeptByResending I) (h : I s) :
    transmitCurrentHandshakePacket.Leaves s I := by
  unfold transmitCurrentHandshakePacket Method.Leaves
  rw [Method.ensures_bind, Method.ensures_get]
  split
  · exact h
  · simp only [Method.ensures_bind, Method.ensures_lift, Method.ensures_modify, scheduleRetransmit]
    refine ⟨fun _ _ => ?_, fun _ _ => h⟩
    exact hI _ _ (hI _ _ h (transmit_resends s)) (.of_eq rfl rfl rfl)

theorem setAndSendPacketToTransmit_leaves (hI : KeptByResending I) {packet : HandshakePacket}
    (h : I { s with currentPacketToRetransmit := some packet }) :
    (setAndSendPacketToTransmit packet).Leaves s I := by
  unfold setAndSendPacketToTransmit Method.Leaves
  rw [Method.ensures_bind, Method.ensures_modify]
  exact transmitCurrentHandshakePacket_leaves hI (hI _ _ h (.of_eq rfl rfl rfl))

theorem handleRetransmit_leaves (hI : KeptByResending I) (h : I s) :
    handleRetransmit.Leaves s I := by
  unfold handleRetransmit Method.Leaves
  rw [Method.ensures_bind, Method.ensures_get]
  split
  · exact h
  · rw [Method.ensures_bind, Method.ensures_modify, Method.ensures_bind, Method.ensures_get]
    have hreset : I { s with currentPacketTransmitCount := 0 } := hI _ _ h (.of_eq rfl rfl rfl)
    split
    · rw [Method.ensures_bind, Method.ensures_modify]
      have hdone : I { s with currentPacketTransmitCount := 0, done := true } :=
        hI _ _ hreset (.of_eq rfl rfl rfl)
      split
      · exact hI _ _ hdone (.of_eq rfl rfl rfl)
      · exact trySetFailure_leaves hI _ hdone
    · exact transmitCurrentHandshakePacket_leaves hI hreset

theorem runScheduled_leaves (hI : KeptByResending I) (h : I s) : runScheduled.Leaves s I := by
  unfold runScheduled Method.Leaves
  simp only [Method.ensures_bind, Method.ensures_get, Method.ensures_modify]
  have hcancelled : I { s with currentRetransmit := none } := hI _ _ h (.of_eq rfl rfl rfl)
  split
  · exact handleRetransmit_leaves hI hcancelled
  · rw [timeoutFail, Method.ensures_bind, terminateWithReason, Method.ensures_modify]
    exact trySetFailure_leaves hI _ (hI _ _ hcancelled (.of_eq rfl rfl rfl))
  · exact hcancelled

theorem completeHandshake_leaves (hI : KeptByResending I) (h : I s) :
    completeHandshake.Leaves s I := by
  unfold completeHandshake Method.Leaves
  simp only [Method.ensures_bind, Method.ensures_get, Method.ensures_modify, Method.ensures_lift]
  have hdone : I { s with done := true, handshakeCompletedSuccesfully := true } :=
    hI _ _ h (.of_eq rfl rfl rfl)
  refine ⟨fun secureRtpSocket _ => ?_, fun _ _ => hdone⟩
  refine ⟨fun _ _ => ?_, fun _ _ => hdone⟩
  refine ⟨fun masterSecret _ => ?_, fun _ _ => hdone⟩
  exact trySetResult_leaves hI _ hdone

theorem terminate_leaves (hI : KeptByResending I) (h : I s) : terminate.Leaves s I :=
  hI _ _ h (.of_eq rfl rfl rfl)

variable [CryptoTools] {environment : Environment} {newKeys : NewKeys} {packet : HandshakePacket}

/-- What is kept by sending again is kept by a packet if what the role makes of it keeps it, with
and without the response. -/
theorem handleHandshakePacket_leaves (hI : KeptByResending I) (h : I s)
    (hunanswered :
      I { s with zrtpRole := (s.zrtpRole.handlePacket environment newKeys packet).2 })
    (hanswered : ∀ responsePacket,
      (s.zrtpRole.handlePacket environment newKeys packet).1 = .ok (some responsePacket) →
      I { s with
        zrtpRole := (s.zrtpRole.handlePacket environment newKeys packet).2
        currentPacketToRetransmit := some responsePacket }) :
    (handleHandshakePacket environment newKeys packet).Leaves s I := by
  unfold handleHandshakePacket Method.Leaves
  rw [Method.ensures_bind, Method.ensures_get]
  split
  · exact h
  · simp only [Method.ensures_bind, Method.ensures_get, Method.ensures_modify,
      Method.ensures_lift]
    generalize s.zrtpRole.handlePacket environment newKeys packet = result at *
    obtain ⟨response, zrtpRole⟩ := result
    have hcompleted {t : ZrtpManager} (ht : I t) :
        (if zrtpRole.hasHandshakeFinishedSuccessfully = true then completeHandshake
          else pure ()).Leaves t I := by
      split
      · exact completeHandshake_leaves hI ht
      · exact ht
    refine ⟨fun answer hanswer => ?_, fun _ _ => hunanswered⟩
    cases answer with
    | none => exact hcompleted hunanswered
    | some responsePacket =>
      dsimp only
      rw [Method.ensures_bind]
      exact (setAndSendPacketToTransmit_leaves hI (hanswered responsePacket hanswer)).mono
        (fun _ _ => hcompleted) fun _ _ => id

/-- A Conf2Ack is handled that may not have arrived. -/
theorem handleError_leaves (hI : KeptByResending I) (h : I s)
    (hconfirmAck : ∀ p, p.typeId = handshakeTypeConfirmAck →
      (handleHandshakePacket environment newKeys p).Leaves s I) {error : Exception}
    {relatedInfo : Option RtpPacket} {causedTermination : Bool} :
    (handleError environment newKeys error relatedInfo causedTermination).Leaves s I := by
  unfold handleError Method.Leaves
  split
  · simp only [Method.ensures_bind, Method.ensures_pure]
    refine (terminate_leaves hI h).mono (fun _ _ ht => ?_) fun _ _ => id
    exact trySetFailure_leaves hI _ ht
  · simp only [Method.ensures_bind, Method.ensures_get, Method.ensures_lift]
    refine ⟨fun implying _ => ?_, fun _ _ => h⟩
    split
    · simp only [Method.ensures_bind, Method.ensures_lift]
      refine ⟨fun confirmAck hack => ?_, fun _ _ => h⟩
      exact hconfirmAck _ (ConfirmAckPacket.typeId_of_confirmAckPacket hack)
    · exact h

end

variable [CryptoTools] {isInitiator : Bool} {made : KeyAgreementParticipant → Prop}
  {received received' : HandshakePacket → Prop} {s : ZrtpManager} {environment : Environment}
  {newKeys : NewKeys} {packet : HandshakePacket}

/-- What a manager keeps to from `start` on. -/
structure Progress (isInitiator : Bool) (made : KeyAgreementParticipant → Prop)
    (received : HandshakePacket → Prop) (start s : ZrtpManager) : Prop where
  role : s.zrtpRole.Progress isInitiator made received s.Sends
  sent_of_sent : ∀ p, p ∈ start.handshakeSocket → p ∈ s.handshakeSocket

theorem progress_keptByResending {start : ZrtpManager} :
    KeptByResending (Progress isInitiator made received start) := fun _ _ h hst =>
  { role := hst.zrtpRole_eq ▸ h.role.mono (fun _ => id) hst.sends_of_sends
    sent_of_sent := fun p hp => hst.sent_of_sent p (h.sent_of_sent p hp) }

theorem handleHandshakePacket_progress (hnewKeys : newKeys.Make made) {start : ZrtpManager}
    (h : Progress isInitiator made received start s) (hpacket : received packet) :
    (handleHandshakePacket environment newKeys packet).Leaves s
      (Progress isInitiator made received start) := by
  have hrole : (s.zrtpRole.handlePacket environment newKeys packet).2.Progress _ _ _ _ :=
    ZrtpRole.handlePacket_progress hnewKeys h.role hpacket
  refine handleHandshakePacket_leaves progress_keptByResending h ?_ ?_
  · exact ⟨hrole.mono (fun _ => id) fun _ => .inl, h.sent_of_sent⟩
  · intro responsePacket hanswer
    refine ⟨hrole.mono (fun _ => id) ?_, h.sent_of_sent⟩
    intro p hp
    rcases hp with hp | hp
    · exact .inl (.inl hp)
    · exact .inr (hanswer.trans (congrArg Except.ok hp))

end ZrtpManager

/-- The participants that are made for the event are among `made`. -/
def ManagerEvent.Makes (made : KeyAgreementParticipant → Prop) : ManagerEvent → Prop
  | handshakePacket newKeys _ => newKeys.Make made
  | error newKeys _ _ _ => newKeys.Make made
  | scheduledRun => True
  | terminate => True

def HandshakeEvent.Makes (made : KeyAgreementParticipant → Prop) : HandshakeEvent → Prop
  | initiator event => event.Makes made
  | responder event => event.Makes made

/-- What a manager handles: what its peer has sent, or a Conf2Ack of its own. -/
def Delivered (sentByPeer : List HandshakePacket) (p : HandshakePacket) : Prop :=
  p ∈ sentByPeer ∨ p.typeId = handshakeTypeConfirmAck

section
variable [CryptoTools] {isInitiator : Bool} {made : KeyAgreementParticipant → Prop}

theorem ManagerEvent.handle_leaves {I : ZrtpManager → Prop} (environment : Environment)
    {event : ManagerEvent} {sentByPeer : List HandshakePacket} {s : ZrtpManager}
    (hI : ZrtpManager.KeptByResending I)
    (hpacket : ∀ newKeys packet, newKeys.Make made → Delivered sentByPeer packet →
      (ZrtpManager.handleHandshakePacket environment newKeys packet).Leaves s I)
    (hmakes : event.Makes made) (hevent : event.canHappen sentByPeer s = true) (h : I s) :
    (event.handle environment).Leaves s I := by
  cases event with
  | handshakePacket newKeys packet =>
    have hsent : packet ∈ sentByPeer :=
      List.contains_iff_mem.mp (Bool.and_eq_true_iff.mp hevent).2
    exact hpacket newKeys packet hmakes (.inl hsent)
  | error newKeys exception relatedInfo causedTermination =>
    exact ZrtpManager.handleError_leaves hI h fun p hp => hpacket newKeys p hmakes (.inr hp)
  | scheduledRun => exact ZrtpManager.runScheduled_leaves hI h
  | terminate => exact ZrtpManager.terminate_leaves hI h

theorem ManagerEvent.handle_progress (environment : Environment) {event : ManagerEvent}
    {sentByPeer : List HandshakePacket} {s : ZrtpManager} (hmakes : event.Makes made)
    (hevent : event.canHappen sentByPeer s = true)
    (h : ZrtpManager.Progress isInitiator made (Delivered sentByPeer) s s) :
    (event.handle environment).Leaves s
      (ZrtpManager.Progress isInitiator made (Delivered sentByPeer) s) :=
  handle_leaves environment ZrtpManager.progress_keptByResending
    (fun _ _ hnewKeys hreceived =>
      ZrtpManager.handleHandshakePacket_progress hnewKeys h hreceived) hmakes hevent h

end

/-- What the factory of the initiator makes. -/
theorem ZrtpInitiator.start_progress [CryptoTools] {environment : Environment}
    {random : SecureRandomData} {s : ZrtpInitiator} {made : KeyAgreementParticipant → Prop}
    {received sent : HandshakePacket → Prop} (hrandom : random.dhSharedSecretHashes.Valid)
    (hs : zrtpInitiator environment random = .ok s) (hunsent : ∀ p, ¬ sent p) :
    s.Progress made received sent := by
  obtain ⟨hashChain, -, hs⟩ := Throws.bind_eq_ok.mp hs
  obtain rfl := Throws.pure_eq_ok.mp hs
  exact .expectingHello rfl hrandom hunsent

/-- What the factory of the responder makes. -/
theorem ZrtpResponder.start_progress [CryptoTools] {environment : Environment}
    {random : SecureRandomData} {s : ZrtpResponder} {made : KeyAgreementParticipant → Prop}
    {received sent : HandshakePacket → Prop} (hrandom : random.dhSharedSecretHashes.Valid)
    (hs : zrtpResponder environment random = .ok s)
    (hsent : ∀ p, sent p → p = s.localHello.embeddedIntoHandshakePacket) :
    s.Progress made received sent := by
  obtain ⟨hashChain, -, hs⟩ := Throws.bind_eq_ok.mp hs
  obtain ⟨localHello, hlocalHello, hs⟩ := Throws.bind_eq_ok.mp hs
  obtain ⟨agreeIds, -, hlocalHello⟩ := Throws.bind_eq_ok.mp hlocalHello
  obtain rfl := Throws.pure_eq_ok.mp hs
  exact .expectingHello rfl
    ⟨hrandom, HelloPacket.readable_of_helloPacketWithVersion hlocalHello⟩ hsent

namespace Handshake
variable [CryptoTools]

/-- What either role has made is made of what the other has sent. -/
structure Progress (made : KeyAgreementParticipant → Prop) (s : Handshake) : Prop where
  initiator : s.initiator.zrtpRole.Progress true made (Delivered s.responder.handshakeSocket)
    s.initiator.Sends
  responder : s.responder.zrtpRole.Progress false made (Delivered s.initiator.handshakeSocket)
    s.responder.Sends

variable {initiatorEnvironment responderEnvironment : Environment}
  {initiatorRandom responderRandom : SecureRandomData} {initiator : ZrtpInitiator}
  {responder : ZrtpResponder} {made : KeyAgreementParticipant → Prop}

theorem start_progress (hinitiatorRandom : initiatorRandom.dhSharedSecretHashes.Valid)
    (hresponderRandom : responderRandom.dhSharedSecretHashes.Valid)
    (hinitiator :
      ZrtpInitiator.zrtpInitiator initiatorEnvironment initiatorRandom = .ok initiator)
    (hresponder :
      ZrtpResponder.zrtpResponder responderEnvironment responderRandom = .ok responder) :
    (start initiator responder).Progress made := by
  constructor
  case initiator =>
    refine ⟨rfl, ZrtpInitiator.start_progress hinitiatorRandom hinitiator ?_⟩
    rintro p (hp | hp)
    · cases hp
    · cases hp
  case responder =>
    refine ⟨rfl, ZrtpResponder.Progress.withCallController
      (ZrtpResponder.start_progress hresponderRandom hresponder ?_) _⟩
    rintro p (hp | hp)
    · exact List.mem_singleton.mp hp
    · exact (Option.some.inj hp).symm

theorem step_progress {s t : Handshake} {event : HandshakeEvent} (hmakes : event.Makes made)
    (h : s.Progress made) (hstep : (machine initiatorEnvironment responderEnvironment initiator
      responder).step s event = some t) : t.Progress made := by
  cases event with
  | initiator event =>
    obtain ⟨hevent, hstep⟩ := Option.ite_none_right_eq_some.mp hstep
    obtain rfl := Option.some.inj hstep
    have hinitiator := (ManagerEvent.handle_progress initiatorEnvironment hmakes hevent
      ⟨h.initiator, fun _ => id⟩).run
    exact ⟨hinitiator.role, h.responder.mono
      (fun p => .imp_left (hinitiator.sent_of_sent p)) fun _ => id⟩
  | responder event =>
    obtain ⟨hevent, hstep⟩ := Option.ite_none_right_eq_some.mp hstep
    obtain rfl := Option.some.inj hstep
    have hresponder := (ManagerEvent.handle_progress responderEnvironment hmakes hevent
      ⟨h.responder, fun _ => id⟩).run
    exact ⟨h.initiator.mono (fun p => .imp_left (hresponder.sent_of_sent p)) fun _ => id,
      hresponder.role⟩

theorem run_progress (hinitiatorRandom : initiatorRandom.dhSharedSecretHashes.Valid)
    (hresponderRandom : responderRandom.dhSharedSecretHashes.Valid)
    (hinitiator :
      ZrtpInitiator.zrtpInitiator initiatorEnvironment initiatorRandom = .ok initiator)
    (hresponder :
      ZrtpResponder.zrtpResponder responderEnvironment responderRandom = .ok responder)
    {tr : History Handshake HandshakeEvent}
    (hrun : (machine initiatorEnvironment responderEnvironment initiator responder).Run tr)
    (hmakes : ∀ event ∈ tr.map Prod.fst, event.Makes made) :
    ((machine initiatorEnvironment responderEnvironment initiator responder).last tr).Progress
      made := by
  refine hrun.invariant (P := fun tr => (∀ event ∈ tr.map Prod.fst, event.Makes made) →
    ((machine initiatorEnvironment responderEnvironment initiator responder).last tr).Progress made)
    (fun _ => start_progress hinitiatorRandom hresponderRandom hinitiator hresponder)
    (fun tr event s _ hP hstep hmakes => ?_) hmakes
  have hearlier := hP fun event hevent => hmakes event (List.mem_cons_of_mem _ hevent)
  exact step_progress (hmakes event List.mem_cons_self) hearlier hstep

end Handshake
end SignalIOS.Zrtp
