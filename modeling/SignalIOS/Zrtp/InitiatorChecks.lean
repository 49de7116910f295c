import SignalIOS.Zrtp.ResponderChecks
import SignalIOS.Zrtp.ZrtpInitiator

/-! What the initiator has verified about the packets it has stored. -/
namespace SignalIOS.Zrtp
open SignalIOS.Lib SignalIOS.Rtp SignalIOS.Srtp

namespace ZrtpInitiator
variable [CryptoTools]

/-- The Hello is authenticated by the DHPart1. -/
structure HelloVerified (received : HandshakePacket → Prop) (s : ZrtpInitiator)
    (hello : HelloPacket) (dh : DhPacket) : Prop where
  hello_stored : Stored received (·.parsedAsHello) s.foreignHello hello
  dh_stored : Stored received (·.parsedAsDh1) s.foreignDH dh
  hello_verified : hello.embeddedIntoHandshakePacket.VerifiedBy hello.hashChainH3
    dh.hashChainH1.hashWithSha256

/-- The DHPart1 is authenticated by the Confirm1, which is authenticated with the master secret. -/
structure Authenticated (received : HandshakePacket → Prop) (s : ZrtpInitiator)
    (hello : HelloPacket) (dh : DhPacket) (masterSecret : MasterSecret)
    (confirm : ConfirmPacket) : Prop extends HelloVerified received s hello dh where
  masterSecret_eq : s.masterSecret = some masterSecret
  confirm_received : ∃ p, received p ∧ p.parsedAsConfirm1Authenticated
    masterSecret.responderMacKey masterSecret.responderZrtpKey = .ok confirm
  dh_verified : dh.embeddedIntoHandshakePacket.VerifiedBy dh.hashChainH1 confirm.hashChainH0

/-- The responder has shown that it has received the Confirm2. -/
def Acknowledged (environment : Environment) (received : HandshakePacket → Prop)
    (receivedRtp : RtpPacket → Prop) (masterSecret : MasterSecret) : Prop :=
  (∃ p confirmAck, received p ∧ p.parsedAsConfAck = .ok confirmAck) ∨
    ∃ p, receivedRtp p ∧ SrtpStream.Authenticates masterSecret.responderMacKey environment p

/-- What has been verified when the next packet is awaited. -/
inductive Verified (environment : Environment) (received : HandshakePacket → Prop)
    (receivedRtp : RtpPacket → Prop) (s : ZrtpInitiator) : Prop
  | expectingHello (h : s.packetExpectation = .expectingHello)
  | expectingHelloAck (h : s.packetExpectation = .expectingHelloAck) (hello : HelloPacket)
    (stored : Stored received (·.parsedAsHello) s.foreignHello hello)
  | expectingDH (h : s.packetExpectation = .expectingDH) (hello : HelloPacket)
    (stored : Stored received (·.parsedAsHello) s.foreignHello hello)
  | expectingConfirm (h : s.packetExpectation = .expectingConfirm) (hello : HelloPacket)
    (dh : DhPacket) (verified : HelloVerified received s hello dh)
  | expectingConfirmAck (h : s.packetExpectation = .expectingConfirmAck) (hello : HelloPacket)
    (dh : DhPacket) (masterSecret : MasterSecret) (confirm : ConfirmPacket)
    (authenticated : Authenticated received s hello dh masterSecret confirm)
  | finished (h : s.packetExpectation = .expectingNothing) (hello : HelloPacket)
    (dh : DhPacket) (masterSecret : MasterSecret) (confirm : ConfirmPacket)
    (authenticated : Authenticated received s hello dh masterSecret confirm)
    (acknowledged : Acknowledged environment received receivedRtp masterSecret)

variable {received received' : HandshakePacket → Prop} {receivedRtp receivedRtp' : RtpPacket → Prop}
  {s : ZrtpInitiator} {hello : HelloPacket} {dh : DhPacket} {masterSecret : MasterSecret}
  {confirm : ConfirmPacket} {environment : Environment} {newKeys : NewKeys}
  {packet : HandshakePacket}

theorem HelloVerified.mono (h : HelloVerified received s hello dh)
    (hr : ∀ p, received p → received' p) : HelloVerified received' s hello dh :=
  { h with hello_stored := h.hello_stored.mono hr, dh_stored := h.dh_stored.mono hr }

theorem Authenticated.mono (h : Authenticated received s hello dh masterSecret confirm)
    (hr : ∀ p, received p → received' p) :
    Authenticated received' s hello dh masterSecret confirm :=
  { h with
    toHelloVerified := h.toHelloVerified.mono hr
    confirm_received := h.confirm_received.imp fun _ hp => ⟨hr _ hp.1, hp.2⟩ }

theorem Acknowledged.mono (h : Acknowledged environment received receivedRtp masterSecret)
    (hr : ∀ p, received p → received' p) (hrtp : ∀ p, receivedRtp p → receivedRtp' p) :
    Acknowledged environment received' receivedRtp' masterSecret :=
  h.imp (fun ⟨p, confirmAck, hp, hparsed⟩ => ⟨p, confirmAck, hr p hp, hparsed⟩)
    fun ⟨p, hp, hauthenticates⟩ => ⟨p, hrtp p hp, hauthenticates⟩

theorem Verified.mono (h : Verified environment received receivedRtp s)
    (hr : ∀ p, received p → received' p) (hrtp : ∀ p, receivedRtp p → receivedRtp' p) :
    Verified environment received' receivedRtp' s := by
  cases h with
  | expectingHello h => exact .expectingHello h
  | expectingHelloAck h hello stored => exact .expectingHelloAck h hello (stored.mono hr)
  | expectingDH h hello stored => exact .expectingDH h hello (stored.mono hr)
  | expectingConfirm h hello dh verified => exact .expectingConfirm h hello dh (verified.mono hr)
  | expectingConfirmAck h hello dh masterSecret confirm authenticated =>
    exact .expectingConfirmAck h hello dh masterSecret confirm (authenticated.mono hr)
  | finished h hello dh masterSecret confirm authenticated acknowledged =>
    exact .finished h hello dh masterSecret confirm (authenticated.mono hr)
      (acknowledged.mono hr hrtp)

theorem handleHello_leaves (hexpecting : s.packetExpectation = .expectingHello)
    (hpacket : received packet) : (handleHello environment newKeys packet).Leaves s
      (Verified environment received receivedRtp) := by
  simp only [handleHello, Method.ensures_bind, Method.ensures_lift, Method.ensures_modify,
    Method.ensures_get, Method.ensures_pure]
  refine ⟨fun hello hparsed => ?_, fun _ _ => .expectingHello hexpecting⟩
  refine ⟨fun participant _ => ?_, fun _ _ => .expectingHello hexpecting⟩
  refine ⟨fun localHello _ => ?_, fun _ _ => .expectingHello hexpecting⟩
  exact .expectingHelloAck rfl hello ⟨rfl, _, hpacket, hparsed⟩

theorem handleHelloAck_leaves (hexpecting : s.packetExpectation = .expectingHelloAck)
    (hhello : Stored received (·.parsedAsHello) s.foreignHello hello) :
    (handleHelloAck newKeys packet).Leaves s (Verified environment received receivedRtp) := by
  simp only [handleHelloAck, Method.ensures_bind, Method.ensures_lift, Method.ensures_modify,
    Method.ensures_get, Method.ensures_pure]
  refine ⟨fun _ _ => ?_, fun _ _ => .expectingHelloAck hexpecting hello hhello⟩
  refine ⟨fun _ _ => ?_, fun _ _ => .expectingHelloAck hexpecting hello hhello⟩
  refine ⟨fun participant _ => ?_, fun _ _ => .expectingHelloAck hexpecting hello hhello⟩
  refine ⟨fun localDH _ => ?_, fun _ _ => .expectingHelloAck hexpecting hello hhello⟩
  refine ⟨fun foreignHello _ => ?_, fun _ _ => .expectingHelloAck hexpecting hello hhello⟩
  refine ⟨fun commitPacket _ => ?_, fun _ _ => .expectingHelloAck hexpecting hello hhello⟩
  exact .expectingDH rfl hello hhello

theorem handleDH_leaves (hexpecting : s.packetExpectation = .expectingDH)
    (hhello : Stored received (·.parsedAsHello) s.foreignHello hello) (hpacket : received packet) :
    (handleDH packet).Leaves s (Verified environment received receivedRtp) := by
  simp only [handleDH, Method.ensures_bind, Method.ensures_lift, Method.ensures_modify,
    Method.ensures_get, Method.ensures_pure]
  refine ⟨fun dh hparsed => ?_, fun _ _ => .expectingDH hexpecting hello hhello⟩
  refine ⟨fun _ hmac => ?_, fun _ _ => .expectingDH hexpecting hello hhello⟩
  refine ⟨fun participant _ => ?_, fun _ _ => .expectingDH hexpecting hello hhello⟩
  refine ⟨fun dhResult _ => ?_, fun _ _ => .expectingDH hexpecting hello hhello⟩
  refine ⟨fun localHello _ => ?_, fun _ _ => .expectingDH hexpecting hello hhello⟩
  refine ⟨fun foreignHello _ => ?_, fun _ _ => .expectingDH hexpecting hello hhello⟩
  refine ⟨fun commitPacket _ => ?_, fun _ _ => .expectingDH hexpecting hello hhello⟩
  refine ⟨fun localDH _ => ?_, fun _ _ => .expectingDH hexpecting hello hhello⟩
  refine ⟨fun masterSecret _ => ?_, fun _ _ => .expectingDH hexpecting hello hhello⟩
  exact .expectingConfirm rfl hello dh
    { hello_stored := hhello
      dh_stored := ⟨rfl, _, hpacket, hparsed⟩
      hello_verified := HelloPacket.verifiedBy (hhello.of_tell hmac) }

theorem handleConfirmOne_leaves (hexpecting : s.packetExpectation = .expectingConfirm)
    (hverified : HelloVerified received s hello dh) (hpacket : received packet) :
    (handleConfirmOne packet).Leaves s (Verified environment received receivedRtp) := by
  simp only [handleConfirmOne, Method.ensures_bind, Method.ensures_lift, Method.ensures_modify,
    Method.ensures_get, Method.ensures_pure]
  have hunchanged : Verified environment received receivedRtp s :=
    .expectingConfirm hexpecting hello dh hverified
  refine ⟨fun masterSecret hmasterSecret => ?_, fun _ _ => hunchanged⟩
  refine ⟨fun confirm hparsed => ?_, fun _ _ => hunchanged⟩
  refine ⟨fun _ hmac => ?_, fun _ _ => hunchanged⟩
  have hauthenticated : Authenticated received
      { s with packetExpectation := .expectingConfirmAck } hello dh masterSecret confirm :=
    { hello_stored := hverified.hello_stored
      dh_stored := hverified.dh_stored
      hello_verified := hverified.hello_verified
      masterSecret_eq := owsRequireNotNil_eq_ok.mp hmasterSecret
      confirm_received := ⟨_, hpacket, hparsed⟩
      dh_verified := DhPacket.verifiedBy (hverified.dh_stored.of_tell hmac) }
  exact ⟨fun _ _ => .expectingConfirmAck rfl hello dh masterSecret confirm hauthenticated,
    fun _ _ => .expectingConfirmAck rfl hello dh masterSecret confirm hauthenticated⟩

/-- The packet may also be one that the error handler has made. -/
theorem handleConfirmAck_leaves (hexpecting : s.packetExpectation = .expectingConfirmAck)
    (hauthenticated : Authenticated received s hello dh masterSecret confirm)
    (hacknowledged : ∀ confirmAck, packet.parsedAsConfAck = .ok confirmAck →
      Acknowledged environment received receivedRtp masterSecret) :
    (handleConfirmAck packet).Leaves s (Verified environment received receivedRtp) := by
  simp only [handleConfirmAck, Method.ensures_bind, Method.ensures_lift, Method.ensures_modify,
    Method.ensures_pure]
  refine ⟨fun confirmAck hparsed => ?_, fun _ _ =>
    .expectingConfirmAck hexpecting hello dh masterSecret confirm hauthenticated⟩
  exact .finished rfl hello dh masterSecret confirm { hauthenticated with }
    (hacknowledged confirmAck hparsed)

theorem handleExpected_leaves (hverified : Verified environment received receivedRtp s)
    (hpacket : received packet) : (handleExpected environment newKeys packet).Leaves s
      (Verified environment received receivedRtp) := by
  rw [Method.Leaves, handleExpected, Method.ensures_bind, Method.ensures_get]
  cases hverified with
  | expectingHello h => simpa only [h] using handleHello_leaves h hpacket
  | expectingHelloAck h hello stored => simpa only [h] using handleHelloAck_leaves h stored
  | expectingDH h hello stored => simpa only [h] using handleDH_leaves h stored hpacket
  | expectingConfirm h hello dh verified =>
    simpa only [h] using handleConfirmOne_leaves h verified hpacket
  | expectingConfirmAck h hello dh masterSecret confirm authenticated =>
    simpa only [h] using handleConfirmAck_leaves h authenticated
      fun confirmAck hparsed => .inl ⟨packet, confirmAck, hpacket, hparsed⟩
  | finished h hello dh masterSecret confirm authenticated acknowledged =>
    simpa only [h, Method.ensures_pure] using
      .finished h hello dh masterSecret confirm authenticated acknowledged

/-- What implies a Conf2Ack lets any packet stand for one. -/
theorem handleExpected_leaves_of_acknowledged
    (hverified : Verified environment received receivedRtp s)
    (hexpecting : s.packetExpectation = .expectingConfirmAck)
    (hacknowledged : ∀ masterSecret, s.masterSecret = some masterSecret →
      Acknowledged environment received receivedRtp masterSecret) :
    (handleExpected environment newKeys packet).Leaves s
      (Verified environment received receivedRtp) := by
  rw [Method.Leaves, handleExpected, Method.ensures_bind, Method.ensures_get]
  cases hverified with
  | expectingConfirmAck h hello dh masterSecret confirm authenticated =>
    simpa only [h] using handleConfirmAck_leaves h authenticated
      fun _ _ => hacknowledged masterSecret authenticated.masterSecret_eq
  | _ h => simp [h] at hexpecting

theorem Verified.withCallController (h : Verified environment received receivedRtp s)
    (callController : List CallControllerMessage) :
    Verified environment received receivedRtp { s with callController := callController } := by
  cases h with
  | expectingHello h => exact .expectingHello h
  | expectingHelloAck h hello stored => exact .expectingHelloAck h hello stored
  | expectingDH h hello stored => exact .expectingDH h hello stored
  | expectingConfirm h hello dh verified => exact .expectingConfirm h hello dh { verified with }
  | expectingConfirmAck h hello dh masterSecret confirm authenticated =>
    exact .expectingConfirmAck h hello dh masterSecret confirm { authenticated with }
  | finished h hello dh masterSecret confirm authenticated acknowledged =>
    exact .finished h hello dh masterSecret confirm { authenticated with } acknowledged

theorem handlePacket_leaves (h : (handleExpected environment newKeys packet).Leaves s
      (Verified environment received receivedRtp)) :
    (handlePacket environment newKeys packet).Leaves s
      (Verified environment received receivedRtp) := by
  rw [Method.Leaves, handlePacket, Method.ensures_tryCatch]
  refine h.mono (fun _ _ h => h) fun exception t h => ?_
  cases exception with
  | securityFailure => exact h.withCallController _
  | operationFailed description => exact h
  | badArgument => exact h
  | badState => exact h
  | nsRangeException => exact h

/-- Audio that implies a Conf2Ack has been authenticated with the key of the responder. -/
theorem authenticates_of_implyingConf2Ack {relatedInfo : Option RtpPacket}
    (h : s.isAuthenticatedAudioDataImplyingConf2Ack environment relatedInfo = .ok true) :
    s.packetExpectation = .expectingConfirmAck ∧ ∃ masterSecret p,
      s.masterSecret = some masterSecret ∧ relatedInfo = some p ∧
        SrtpStream.Authenticates masterSecret.responderMacKey environment p := by
  unfold isAuthenticatedAudioDataImplyingConf2Ack at h
  split at h
  · rename_i p hexpecting
    simp only [tryCatch, tryCatchThe, MonadExceptOf.tryCatch, Except.tryCatch] at h
    split at h
    · rename_i hdone
      simp only [Throws.bind_eq_ok, owsRequireNotNil_eq_ok] at hdone
      obtain ⟨masterSecret, hmasterSecret, incomingContext, hcontext, _, hdecrypted, -⟩ := hdone
      refine ⟨hexpecting, masterSecret, p, hmasterSecret, rfl, ?_⟩
      rw [← SrtpStream.macKey_of_srtpStreamWithCipherKey hcontext]
      exact (SrtpStream.verifyAuthenticationAndDecrypt_ensures _ _ _).of_run_ok hdecrypted
    · split at h <;> cases h
  · cases h

end ZrtpInitiator
end SignalIOS.Zrtp
