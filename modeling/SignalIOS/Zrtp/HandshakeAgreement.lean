import SignalIOS.Zrtp.Authentication
import SignalIOS.Zrtp.HandshakeProgress

/-! Agreement: when both roles have finished they have made one master secret, from the packets of
one another, and either side decrypts with the keys that the other encrypts with. -/
namespace SignalIOS.Zrtp
open SignalIOS.Lib SignalIOS.Network SignalIOS.Srtp

theorem handshakeTypes_nodup :
    [handshakeTypeHello, handshakeTypeHelloAck, handshakeTypeCommit, handshakeTypeDh1,
      handshakeTypeDh2, handshakeTypeConfirm1, handshakeTypeConfirm2,
      handshakeTypeConfirmAck].Nodup := by
  decide

/-- Whoever made them, two participants of one protocol compute the same from the public key of one
another. -/
def KeysAgree (made : KeyAgreementParticipant → Prop) : Prop :=
  ∀ a b, made a → made b → a.getProtocol = b.getProtocol →
    a.calculateKeyAgreementAgainstRemotePublicKey b.getPublicKeyData =
      b.calculateKeyAgreementAgainstRemotePublicKey a.getPublicKeyData

/-- The type of a packet of the initiator says which it is. -/
theorem ZrtpInitiator.SecretSent.delivered {sent : HandshakePacket → Prop} {hello : HelloPacket}
    {dh : DhPacket} {commit : CommitPacket} {p : HandshakePacket}
    (h : SecretSent sent hello dh commit) (hhello : hello.Readable) (hdh : dh.Readable false)
    (hcommit : commit.Readable) (hp : sent p ∨ p.typeId = handshakeTypeConfirmAck) :
    (p.typeId = handshakeTypeHello → p = hello.embeddedIntoHandshakePacket) ∧
      (p.typeId = handshakeTypeCommit → p = commit.embeddedIntoHandshakePacket) ∧
      (p.typeId = handshakeTypeDh2 → p = dh.embeddedIntoHandshakePacket) := by
  have hdistinct := handshakeTypes_nodup
  have hhelloType := hhello.typeId
  have hcommitType := hcommit.typeId
  have hdhType : dh.embeddedIntoHandshakePacket.typeId = handshakeTypeDh2 := hdh.typeId
  have hcases := h p
  simp only [List.nodup_cons, List.mem_cons, List.not_mem_nil, or_false, not_or] at hdistinct
  grind

/-- The type of a packet of the responder says which it is. -/
theorem ZrtpResponder.SecretSent.delivered {sent : HandshakePacket → Prop} {hello : HelloPacket}
    {dh : DhPacket} {p : HandshakePacket} (h : SecretSent sent hello dh) (hhello : hello.Readable)
    (hdh : dh.Readable true) (hp : sent p ∨ p.typeId = handshakeTypeConfirmAck) :
    (p.typeId = handshakeTypeHello → p = hello.embeddedIntoHandshakePacket) ∧
      (p.typeId = handshakeTypeDh1 → p = dh.embeddedIntoHandshakePacket) := by
  have hdistinct := handshakeTypes_nodup
  have hhelloType := hhello.typeId
  have hdhType : dh.embeddedIntoHandshakePacket.typeId = handshakeTypeDh1 := hdh.typeId
  have hcases := h p
  simp only [List.nodup_cons, List.mem_cons, List.not_mem_nil, or_false, not_or] at hdistinct
  grind

section
variable [CryptoTools] {made : KeyAgreementParticipant → Prop}
  {received sent sentByPeer : HandshakePacket → Prop}

theorem ZrtpInitiator.Progress.secretMade {s : ZrtpInitiator} (h : s.Progress made received sent)
    (hfinished : s.hasHandshakeFinishedSuccessfully = true) :
    ∃ hello foreignHello participant dh commit foreignDH masterSecret,
      s.SecretMade made received hello foreignHello participant dh commit foreignDH masterSecret ∧
      SecretSent sent hello dh commit := by
  have hnothing : s.packetExpectation = .expectingNothing := of_decide_eq_true hfinished
  cases h with
  | secret _ hello foreignHello participant dh commit foreignDH masterSecret hmade hsent =>
    exact ⟨hello, foreignHello, participant, dh, commit, foreignDH, masterSecret, hmade, hsent⟩
  | _ h => cases h.symm.trans hnothing

theorem ZrtpResponder.Progress.secretMade {s : ZrtpResponder} (h : s.Progress made received sent)
    (hfinished : s.hasHandshakeFinishedSuccessfully = true) :
    ∃ foreignHello commit participant dh foreignDH masterSecret,
      s.SecretMade made received foreignHello commit participant dh foreignDH masterSecret ∧
      SecretSent sent s.localHello dh := by
  have hnothing : s.packetExpectation = .expectingNothing := of_decide_eq_true hfinished
  cases h with
  | secret _ foreignHello commit participant dh foreignDH masterSecret hmade hsent =>
    exact ⟨foreignHello, commit, participant, dh, foreignDH, masterSecret, hmade, hsent⟩
  | _ h => cases h.symm.trans hnothing

/-- The master secret depends on the packets themselves and on the two ZIDs. -/
theorem MasterSecret.masterSecretFromDhResult_congr {dhResult : NSData}
    {initiatorHello initiatorHello' responderHello responderHello' : HelloPacket}
    {commit commit' : CommitPacket} {dhPart1 dhPart1' dhPart2 dhPart2' : DhPacket}
    (hinitiatorZid : initiatorHello'.zid = initiatorHello.zid)
    (hresponderZid : responderHello'.zid = responderHello.zid)
    (hhello : responderHello'.embeddedIntoHandshakePacket =
      responderHello.embeddedIntoHandshakePacket)
    (hcommit : commit'.embeddedIntoHandshakePacket = commit.embeddedIntoHandshakePacket)
    (hdhPart1 : dhPart1'.embeddedIntoHandshakePacket = dhPart1.embeddedIntoHandshakePacket)
    (hdhPart2 : dhPart2'.embeddedIntoHandshakePacket = dhPart2.embeddedIntoHandshakePacket) :
    masterSecretFromDhResult dhResult initiatorHello' responderHello' commit' dhPart1' dhPart2' =
      masterSecretFromDhResult dhResult initiatorHello responderHello commit dhPart1 dhPart2 := by
  simp only [masterSecretFromDhResult, calculateTotalHash, hinitiatorZid, hresponderZid, hhello,
    hcommit, hdhPart1, hdhPart2]

/-- The packets of `s` that came from a responder with these. -/
theorem ZrtpInitiator.SecretMade.of_responder {s : ZrtpInitiator}
    {hello foreignHello responderHello : HelloPacket} {participant : KeyAgreementParticipant}
    {dh foreignDH responderDH : DhPacket} {commit : CommitPacket} {masterSecret : MasterSecret}
    (h : s.SecretMade made (fun p => sentByPeer p ∨ p.typeId = handshakeTypeConfirmAck) hello
      foreignHello participant dh commit foreignDH masterSecret)
    (hsent : ZrtpResponder.SecretSent sentByPeer responderHello responderDH)
    (hhello : responderHello.Readable) (hdh : responderDH.Readable true) :
    (foreignHello.embeddedIntoHandshakePacket = responderHello.embeddedIntoHandshakePacket ∧
      foreignHello.zid = responderHello.zid) ∧
    (foreignDH.embeddedIntoHandshakePacket = responderDH.embeddedIntoHandshakePacket ∧
      foreignDH.publicKeyData = responderDH.publicKeyData) := by
  constructor
  · obtain ⟨p, hp, hparsed⟩ := h.foreignHello_stored.received
    obtain ⟨htype, hembedded, -⟩ := HelloPacket.parsedAsHello_eq_ok hparsed
    obtain rfl := (hsent.delivered hhello hdh hp).1 htype
    exact ⟨hembedded, hhello.parsed hparsed⟩
  · obtain ⟨p, hp, hparsed⟩ := h.foreignDH_stored.received
    obtain ⟨htype, hembedded, -⟩ := DhPacket.dhPacketFromHandshakePacket_eq_ok hparsed
    obtain rfl := (hsent.delivered hhello hdh hp).2 htype
    exact ⟨hembedded, hdh.parsed hparsed⟩

/-- The packets of `s` that came from an initiator with these. -/
theorem ZrtpResponder.SecretMade.of_initiator {s : ZrtpResponder}
    {foreignHello initiatorHello : HelloPacket} {foreignCommit commit : CommitPacket}
    {participant : KeyAgreementParticipant} {dh foreignDH initiatorDH : DhPacket}
    {masterSecret : MasterSecret}
    (h : s.SecretMade made (fun p => sentByPeer p ∨ p.typeId = handshakeTypeConfirmAck)
      foreignHello foreignCommit participant dh foreignDH masterSecret)
    (hsent : ZrtpInitiator.SecretSent sentByPeer initiatorHello initiatorDH commit)
    (hhello : initiatorHello.Readable) (hdh : initiatorDH.Readable false)
    (hcommit : commit.Readable) :
    foreignHello.zid = initiatorHello.zid ∧
    (foreignCommit.embeddedIntoHandshakePacket = commit.embeddedIntoHandshakePacket ∧
      foreignCommit.agreementSpecId = commit.agreementSpecId) ∧
    (foreignDH.embeddedIntoHandshakePacket = initiatorDH.embeddedIntoHandshakePacket ∧
      foreignDH.publicKeyData = initiatorDH.publicKeyData) := by
  refine ⟨?_, ?_, ?_⟩
  · obtain ⟨p, hp, hparsed⟩ := h.foreignHello_stored.received
    obtain ⟨htype, -, -⟩ := HelloPacket.parsedAsHello_eq_ok hparsed
    obtain rfl := (hsent.delivered hhello hdh hcommit hp).1 htype
    exact hhello.parsed hparsed
  · obtain ⟨p, hp, hparsed⟩ := h.foreignCommit_stored.received
    obtain ⟨htype, hembedded, -⟩ := CommitPacket.parsedAsCommitPacket_eq_ok hparsed
    obtain rfl := (hsent.delivered hhello hdh hcommit hp).2.1 htype
    exact ⟨hembedded, hcommit.parsed hparsed⟩
  · obtain ⟨p, hp, hparsed⟩ := h.foreignDH_stored.received
    obtain ⟨htype, hembedded, -⟩ := DhPacket.dhPacketFromHandshakePacket_eq_ok hparsed
    obtain rfl := (hsent.delivered hhello hdh hcommit hp).2.2 htype
    exact ⟨hembedded, hdh.parsed hparsed⟩

omit [CryptoTools] in
/-- A protocol is known by its id. -/
theorem getProtocol_eq {a b : KeyAgreementParticipant}
    (h : a.getProtocol.getId = b.getProtocol.getId) : a.getProtocol = b.getProtocol := by
  cases ha : a.getProtocol
  cases hb : b.getProtocol
  rw [ha, hb] at h
  exact congrArg KeyAgreementProtocol.mk h

/-- Two roles that have stored the packets of one another have made the same of them. -/
theorem masterSecret_eq (hagree : KeysAgree made) {i : ZrtpInitiator} {r : ZrtpResponder}
    {hello foreignHello initiatorHello : HelloPacket} {commit foreignCommit : CommitPacket}
    {participant participant' : KeyAgreementParticipant} {dh1 foreignDH1 dh2 foreignDH2 : DhPacket}
    {masterSecret masterSecret' : MasterSecret}
    (hi : i.SecretMade made (fun p => sentByPeer p ∨ p.typeId = handshakeTypeConfirmAck) hello
      foreignHello participant dh2 commit foreignDH1 masterSecret)
    (hisent : ZrtpInitiator.SecretSent sent hello dh2 commit)
    (hr : r.SecretMade made (fun p => sent p ∨ p.typeId = handshakeTypeConfirmAck)
      initiatorHello foreignCommit participant' dh1 foreignDH2 masterSecret')
    (hrsent : ZrtpResponder.SecretSent sentByPeer r.localHello dh1) :
    masterSecret = masterSecret' := by
  obtain ⟨⟨hforeignHello, hresponderZid⟩, hforeignDH1, hkey1⟩ :=
    hi.of_responder hrsent hr.hello_readable hr.dh_readable
  obtain ⟨hinitiatorZid, ⟨hforeignCommit, hspec⟩, hforeignDH2, hkey2⟩ :=
    hr.of_initiator hisent hi.hello_readable hi.dh_readable hi.commit_readable
  have hprotocol : participant.getProtocol = participant'.getProtocol := by
    apply getProtocol_eq
    rw [← hi.agreementSpecId_eq, ← hspec, hr.agreementSpecId_eq]
  obtain ⟨dhResult, hdhResult, hmade⟩ := hi.masterSecret_made
  obtain ⟨dhResult', hdhResult', hmade'⟩ := hr.masterSecret_made
  rw [hkey1, hr.publicKeyData_eq, hagree _ _ hi.participant_made hr.participant_made hprotocol,
    ← hi.publicKeyData_eq, ← hkey2, hdhResult'] at hdhResult
  obtain rfl := Except.ok.inj hdhResult
  rw [MasterSecret.masterSecretFromDhResult_congr hinitiatorZid hresponderZid.symm
    hforeignHello.symm hforeignCommit hforeignDH1.symm hforeignDH2] at hmade'
  exact Except.ok.inj (hmade.symm.trans hmade')

theorem MasterSecret.length_of_deriveKeyWithLabel {sharedSecret totalHash key : NSData}
    {initiatorZid responderZid : Zid} {label : String} {truncatedLength : ℕ}
    (h : deriveKeyWithLabel sharedSecret totalHash initiatorZid responderZid label
      truncatedLength = .ok key) : key.length = truncatedLength := by
  obtain ⟨hlength, rfl⟩ := NSData.take_eq_ok.mp h
  rw [List.length_take]
  omega

/-- The salts have the size that an SRTP stream asks for. -/
theorem MasterSecret.length_salts {dhResult : NSData} {initiatorHello responderHello : HelloPacket}
    {commit : CommitPacket} {dhPart1 dhPart2 : DhPacket} {masterSecret : MasterSecret}
    (h : masterSecretFromDhResult dhResult initiatorHello responderHello commit dhPart1 dhPart2 =
      .ok masterSecret) :
    masterSecret.initiatorSrtpSalt.length = srtpSaltLength ∧
      masterSecret.responderSrtpSalt.length = srtpSaltLength := by
  simp only [masterSecretFromDhResult, masterSecretFromSharedSecret, Throws.bind_eq_ok] at h
  obtain ⟨_, -, _, -, initiatorSalt, hinitiatorSalt, responderSalt, hresponderSalt, h⟩ := h
  obtain ⟨_, -, _, -, _, -, _, -, _, -, h⟩ := h
  obtain rfl := Throws.pure_eq_ok.mp h
  exact ⟨length_of_deriveKeyWithLabel hinitiatorSalt, length_of_deriveKeyWithLabel hresponderSalt⟩

end

theorem srtpSocketOverRtp_eq_ok (incoming outgoing : SrtpStream)
    (hincoming : incoming.cipherIvSalt.length = ivSaltLength ∧
      incoming.sequenceCounter = SequenceCounter.sequenceCounter)
    (houtgoing : outgoing.cipherIvSalt.length = ivSaltLength ∧
      outgoing.sequenceCounter = SequenceCounter.sequenceCounter) :
    SrtpSocket.srtpSocketOverRtp incoming.cipherKey incoming.macKey incoming.cipherIvSalt
      outgoing.cipherKey outgoing.macKey outgoing.cipherIvSalt = .ok ⟨incoming, outgoing⟩ := by
  have hcontext {s : SrtpStream} (hs : s.cipherIvSalt.length = ivSaltLength ∧
      s.sequenceCounter = SequenceCounter.sequenceCounter) :
      SrtpStream.srtpStreamWithCipherKey s.cipherKey s.macKey s.cipherIvSalt = .ok s := by
    rw [SrtpStream.srtpStreamWithCipherKey, owsRequire, if_pos hs.1, ← hs.2]
    rfl
  rw [SrtpSocket.srtpSocketOverRtp, hcontext hincoming, hcontext houtgoing]
  rfl

/-- What the initiator sends under. -/
def MasterSecret.initiatorContext (masterSecret : MasterSecret) : SrtpStream :=
  ⟨masterSecret.initiatorSrtpKey, masterSecret.initiatorMacKey, masterSecret.initiatorSrtpSalt,
    SequenceCounter.sequenceCounter⟩

/-- What the responder sends under. -/
def MasterSecret.responderContext (masterSecret : MasterSecret) : SrtpStream :=
  ⟨masterSecret.responderSrtpKey, masterSecret.responderMacKey, masterSecret.responderSrtpSalt,
    SequenceCounter.sequenceCounter⟩

theorem ZrtpInitiator.useKeysToSecureRtpSocket_eq {s : ZrtpInitiator} {masterSecret : MasterSecret}
    (hinitiatorSalt : masterSecret.initiatorSrtpSalt.length = ivSaltLength)
    (hresponderSalt : masterSecret.responderSrtpSalt.length = ivSaltLength)
    (hfinished : s.hasHandshakeFinishedSuccessfully = true)
    (hsecret : s.masterSecret = some masterSecret) : s.useKeysToSecureRtpSocket =
      .ok ⟨masterSecret.responderContext, masterSecret.initiatorContext⟩ := by
  rw [useKeysToSecureRtpSocket, requireState, if_pos hfinished, hsecret]
  exact srtpSocketOverRtp_eq_ok masterSecret.responderContext masterSecret.initiatorContext
    ⟨hresponderSalt, rfl⟩ ⟨hinitiatorSalt, rfl⟩

theorem ZrtpResponder.useKeysToSecureRtpSocket_eq {s : ZrtpResponder} {masterSecret : MasterSecret}
    (hinitiatorSalt : masterSecret.initiatorSrtpSalt.length = ivSaltLength)
    (hresponderSalt : masterSecret.responderSrtpSalt.length = ivSaltLength)
    (hfinished : s.hasHandshakeFinishedSuccessfully = true)
    (hsecret : s.masterSecret = some masterSecret) : s.useKeysToSecureRtpSocket =
      .ok ⟨masterSecret.initiatorContext, masterSecret.responderContext⟩ := by
  rw [useKeysToSecureRtpSocket, requireState, if_pos hfinished, hsecret]
  exact srtpSocketOverRtp_eq_ok masterSecret.initiatorContext masterSecret.responderContext
    ⟨hinitiatorSalt, rfl⟩ ⟨hresponderSalt, rfl⟩

theorem ZrtpInitiator.getMasterSecret_eq {s : ZrtpInitiator}
    (hfinished : s.hasHandshakeFinishedSuccessfully = true) :
    s.getMasterSecret = .ok s.masterSecret := by
  rw [getMasterSecret, requireState, if_pos hfinished]
  rfl

theorem ZrtpResponder.getMasterSecret_eq {s : ZrtpResponder}
    (hfinished : s.hasHandshakeFinishedSuccessfully = true) :
    s.getMasterSecret = .ok s.masterSecret := by
  rw [getMasterSecret, requireState, if_pos hfinished]
  rfl

namespace Handshake

/-- Both roles have the master secret, and secure their sockets with its keys. What either sends
under, the other receives under. -/
structure Agreed (s : Handshake) (masterSecret : MasterSecret)
    (initiatorSocket responderSocket : SrtpSocket) : Prop where
  initiator_masterSecret : s.initiator.zrtpRole.getMasterSecret = .ok (some masterSecret)
  responder_masterSecret : s.responder.zrtpRole.getMasterSecret = .ok (some masterSecret)
  initiator_socket : s.initiator.zrtpRole.useKeysToSecureRtpSocket = .ok initiatorSocket
  responder_socket : s.responder.zrtpRole.useKeysToSecureRtpSocket = .ok responderSocket
  initiator_to_responder : initiatorSocket.outgoingContext = responderSocket.incomingContext
  responder_to_initiator : responderSocket.outgoingContext = initiatorSocket.incomingContext

variable [CryptoTools] {made : KeyAgreementParticipant → Prop}

theorem agreed_of_progress (hagree : KeysAgree made) {s : Handshake} (h : s.Progress made)
    (hinitiator : s.initiator.zrtpRole.hasHandshakeFinishedSuccessfully = true)
    (hresponder : s.responder.zrtpRole.hasHandshakeFinishedSuccessfully = true) :
    ∃ masterSecret initiatorSocket responderSocket,
      s.Agreed masterSecret initiatorSocket responderSocket := by
  have hi := h.initiator
  have hr := h.responder
  have hdelivered (p : HandshakePacket) (hp : Delivered s.responder.handshakeSocket p) :
      s.responder.Sends p ∨ p.typeId = handshakeTypeConfirmAck := hp.imp_left .inl
  have hdelivered' (p : HandshakePacket) (hp : Delivered s.initiator.handshakeSocket p) :
      s.initiator.Sends p ∨ p.typeId = handshakeTypeConfirmAck := hp.imp_left .inl
  cases hinitiatorRole : s.initiator.zrtpRole with
  | responder role =>
    rw [hinitiatorRole] at hi
    cases hi.1
  | initiator i =>
    cases hresponderRole : s.responder.zrtpRole with
    | initiator role =>
      rw [hresponderRole] at hr
      cases hr.1
    | responder r =>
      rw [hinitiatorRole] at hi hinitiator
      rw [hresponderRole] at hr hresponder
      obtain ⟨hello, foreignHello, participant, dh, commit, foreignDH, masterSecret, himade,
        hisent⟩ := hi.2.secretMade hinitiator
      obtain ⟨initiatorHello, foreignCommit, participant', dh', foreignDH', masterSecret', hrmade,
        hrsent⟩ := hr.2.secretMade hresponder
      obtain rfl : masterSecret = masterSecret' := masterSecret_eq hagree
        { himade with
          foreignHello_stored := himade.foreignHello_stored.mono hdelivered
          foreignDH_stored := himade.foreignDH_stored.mono hdelivered }
        hisent
        { hrmade with
          foreignHello_stored := hrmade.foreignHello_stored.mono hdelivered'
          foreignCommit_stored := hrmade.foreignCommit_stored.mono hdelivered'
          foreignDH_stored := hrmade.foreignDH_stored.mono hdelivered' }
        hrsent
      obtain ⟨_, -, hsecret⟩ := himade.masterSecret_made
      obtain ⟨hinitiatorSalt, hresponderSalt⟩ := MasterSecret.length_salts hsecret
      refine ⟨masterSecret, ⟨masterSecret.responderContext, masterSecret.initiatorContext⟩,
        ⟨masterSecret.initiatorContext, masterSecret.responderContext⟩, ?_, ?_, ?_, ?_, rfl, rfl⟩
      · rw [hinitiatorRole, ← himade.masterSecret_eq]
        exact ZrtpInitiator.getMasterSecret_eq hinitiator
      · rw [hresponderRole, ← hrmade.masterSecret_eq]
        exact ZrtpResponder.getMasterSecret_eq hresponder
      · rw [hinitiatorRole]
        exact ZrtpInitiator.useKeysToSecureRtpSocket_eq hinitiatorSalt hresponderSalt hinitiator
          himade.masterSecret_eq
      · rw [hresponderRole]
        exact ZrtpResponder.useKeysToSecureRtpSocket_eq hinitiatorSalt hresponderSalt hresponder
          hrmade.masterSecret_eq

/-- In every state that is reached where both roles have finished, they agree. -/
theorem agreed_of_finished (hagree : KeysAgree made)
    {initiatorEnvironment responderEnvironment : Environment}
    {initiatorRandom responderRandom : SecureRandomData} {initiator : ZrtpInitiator}
    {responder : ZrtpResponder} (hinitiatorRandom : initiatorRandom.dhSharedSecretHashes.Valid)
    (hresponderRandom : responderRandom.dhSharedSecretHashes.Valid)
    (hinitiator :
      ZrtpInitiator.zrtpInitiator initiatorEnvironment initiatorRandom = .ok initiator)
    (hresponder :
      ZrtpResponder.zrtpResponder responderEnvironment responderRandom = .ok responder)
    {tr : History Handshake HandshakeEvent}
    (hrun : (machine initiatorEnvironment responderEnvironment initiator responder).Run tr)
    (hmakes : ∀ event ∈ tr.map Prod.fst, event.Makes made) {s : Handshake}
    (hlast : (machine initiatorEnvironment responderEnvironment initiator responder).last tr = s)
    (hinitiatorFinished : s.initiator.zrtpRole.hasHandshakeFinishedSuccessfully = true)
    (hresponderFinished : s.responder.zrtpRole.hasHandshakeFinishedSuccessfully = true) :
    ∃ masterSecret initiatorSocket responderSocket,
      s.Agreed masterSecret initiatorSocket responderSocket := by
  have hprogress :=
    run_progress hinitiatorRandom hresponderRandom hinitiator hresponder hrun hmakes
  rw [hlast] at hprogress
  exact agreed_of_progress hagree hprogress hinitiatorFinished hresponderFinished

end Handshake

/-! A run in which packets are repeated, with the Diffie-Hellman of a small group. -/

section Sample

local instance handshakeCryptoTools : CryptoTools := sampleCryptoTools

/-- The powers of 5 modulo 23. -/
def smallParticipant (protocol : KeyAgreementProtocol) (secretKey : ℕ) :
    KeyAgreementParticipant where
  getProtocol := protocol
  getPublicKeyData := [UInt8.ofNat (5 ^ secretKey % 23)]
  calculateKeyAgreementAgainstRemotePublicKey
    | [publicKey] => .ok [UInt8.ofNat (publicKey.toNat ^ secretKey % 23)]
    | _ => .error .badArgument

def Small (a : KeyAgreementParticipant) : Prop :=
  ∃ protocol secretKey, a = smallParticipant protocol secretKey

theorem keysAgree_small : KeysAgree Small := by
  rintro _ _ ⟨_, j, rfl⟩ ⟨_, k, rfl⟩ -
  have hbyte (n : ℕ) : (UInt8.ofNat (5 ^ n % 23)).toNat = 5 ^ n % 23 := by
    rw [UInt8.toNat_ofNat']
    have := Nat.mod_lt (5 ^ n) (show 0 < 23 by decide)
    omega
  simp only [smallParticipant, hbyte, ← Nat.pow_mod, ← Nat.pow_mul, Nat.mul_comm j k]

def smallKeys (secretKey : ℕ) : NewKeys := fun protocol => .ok (smallParticipant protocol secretKey)

theorem smallKeys_make (secretKey : ℕ) : (smallKeys secretKey).Make Small := by
  intro protocol participant h
  obtain rfl := Except.ok.inj h
  exact ⟨rfl, protocol, secretKey, rfl⟩

/-- What happens to one of the managers: a packet arrives that its peer sent, counted from zero, or
its current packet is sent again. -/
inductive SampleEvent
  | deliver (toInitiator : Bool) (index : ℕ)
  | retransmit (byInitiator : Bool)

def SampleEvent.event (s : Handshake) : SampleEvent → HandshakeEvent
  | deliver true index =>
    .initiator (.handshakePacket (smallKeys 6) (s.responder.handshakeSocket.getD index ⟨[], []⟩))
  | deliver false index =>
    .responder (.handshakePacket (smallKeys 15) (s.initiator.handshakeSocket.getD index ⟨[], []⟩))
  | retransmit true => .initiator .scheduledRun
  | retransmit false => .responder .scheduledRun

theorem SampleEvent.event_makes (e : SampleEvent) (s : Handshake) : (e.event s).Makes Small := by
  rcases e with ⟨_ | _, _⟩ | ⟨_ | _⟩
  · exact smallKeys_make 15
  · exact smallKeys_make 6
  · trivial
  · trivial

def sampleEvents (M : Machine Handshake HandshakeEvent) (s : Handshake) :
    List SampleEvent → List HandshakeEvent
  | [] => []
  | e :: es => e.event s :: sampleEvents M ((M.step s (e.event s)).getD s) es

theorem makes_of_mem_sampleEvents (M : Machine Handshake HandshakeEvent) (es : List SampleEvent)
    (s : Handshake) : ∀ event ∈ sampleEvents M s es, event.Makes Small := by
  induction es generalizing s with
  | nil => exact fun _ h => absurd h List.not_mem_nil
  | cons e es ih =>
    intro event h
    rcases List.mem_cons.mp h with rfl | h
    · exact e.event_makes s
    · exact ih _ event h

/-- The Hello of the responder is repeated before it is answered, and the old one arrives again. -/
def sampleScript : List SampleEvent :=
  [.retransmit false, .deliver true 0, .deliver false 0, .deliver true 1, .retransmit true,
    .deliver true 2, .deliver false 1, .deliver false 2, .deliver true 3, .deliver false 3,
    .deliver true 4, .deliver false 4, .deliver false 4, .deliver true 5]

def sampleInitiator : Throws ZrtpInitiator :=
  ZrtpInitiator.zrtpInitiator sampleEnvironment (sampleRandom 1)

def sampleResponder : Throws ZrtpResponder :=
  ZrtpResponder.zrtpResponder sampleEnvironment (sampleRandom 2)

def sampleMachine (initiator : ZrtpInitiator) (responder : ZrtpResponder) :
    Machine Handshake HandshakeEvent :=
  Handshake.machine sampleEnvironment sampleEnvironment initiator responder

/-- What the events of the script are for the two roles. -/
def sampleHandshakeEvents (initiator : ZrtpInitiator) (responder : ZrtpResponder) :
    List HandshakeEvent :=
  sampleEvents (sampleMachine initiator responder) (Handshake.start initiator responder)
    sampleScript

theorem agreed_of_finished_sample : ∃ initiator responder tr masterSecret initiatorSocket
    responderSocket, sampleInitiator = .ok initiator ∧ sampleResponder = .ok responder ∧
    (sampleMachine initiator responder).exec (sampleHandshakeEvents initiator responder) =
      some tr ∧
    ((sampleMachine initiator responder).last tr).Agreed masterSecret initiatorSocket
      responderSocket := by
  have hvalid (byte : UInt8) : (sampleRandom byte).dhSharedSecretHashes.Valid :=
    ⟨rfl, rfl, rfl, rfl⟩
  have hfinished : (sampleInitiator.toOption.bind fun initiator =>
      sampleResponder.toOption.bind fun responder =>
        ((sampleMachine initiator responder).exec
          (sampleHandshakeEvents initiator responder)).map fun tr =>
            let s := (sampleMachine initiator responder).last tr
            s.initiator.zrtpRole.hasHandshakeFinishedSuccessfully &&
              s.responder.zrtpRole.hasHandshakeFinishedSuccessfully) = some true := by
    decide +kernel
  obtain ⟨initiator, hinitiator, h⟩ := Option.bind_eq_some_iff.mp hfinished
  obtain ⟨responder, hresponder, h⟩ := Option.bind_eq_some_iff.mp h
  have hinitiator := Throws.eq_ok_of_toOption hinitiator
  have hresponder := Throws.eq_ok_of_toOption hresponder
  obtain ⟨tr, htr, h⟩ := Option.map_eq_some_iff.mp h
  obtain ⟨hinitiatorFinished, hresponderFinished⟩ := Bool.and_eq_true_iff.mp h
  have hmakes : ∀ event ∈ tr.map Prod.fst, event.Makes Small := by
    rw [Machine.map_fst_of_exec htr]
    intro event hevent
    exact makes_of_mem_sampleEvents _ _ _ event (List.mem_reverse.mp hevent)
  obtain ⟨masterSecret, initiatorSocket, responderSocket, hagreed⟩ :=
    Handshake.agreed_of_finished keysAgree_small (hvalid 1) (hvalid 2) hinitiator
      hresponder (Machine.run_of_exec htr) hmakes rfl hinitiatorFinished hresponderFinished
  exact ⟨initiator, responder, tr, masterSecret, initiatorSocket, responderSocket, hinitiator,
    hresponder, htr, hagreed⟩

end Sample
end SignalIOS.Zrtp
