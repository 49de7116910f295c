import SignalIOS.Zrtp.ConfirmPacket

/-! What the receiver of a packet reads is what its sender wrote. -/
namespace SignalIOS.Zrtp

/-- A part of the data is read back from where it stands. -/
theorem subdataWithRange_of_append {front part rest : NSData} :
    NSData.subdataWithRange (front ++ part ++ rest) front.length part.length = .ok part := by
  have hdrop : (front ++ part ++ rest).drop front.length = part ++ rest := by
    rw [List.append_assoc, List.drop_left]
  apply NSData.subdataWithRange_of_drop hdrop
  rw [List.append_assoc, List.length_append]
  omega

namespace HandshakePacket

theorem handshakePacketWithTypeId_eq_ok {typeId payload : NSData} {p : HandshakePacket}
    (h : handshakePacketWithTypeId typeId payload = .ok p) : p = ⟨typeId, payload⟩ := by
  obtain ⟨⟨⟩, -, h⟩ := Throws.bind_eq_ok.mp h
  exact (Except.ok.inj h).symm

/-- An HMAC of eight bytes goes to the end. -/
theorem withHmacAppended_eq_ok [CryptoTools] {p q : HandshakePacket} {macKey : NSData}
    (h : p.withHmacAppended macKey = .ok q) : ∃ digest : NSData,
      digest.length = handshakeTruncatedHmacLength ∧ q = ⟨p.typeId, p.payload ++ digest⟩ := by
  simp only [withHmacAppended, Throws.bind_eq_ok, NSData.take_eq_ok] at h
  obtain ⟨digest, ⟨hlength, rfl⟩, h⟩ := h
  refine ⟨_, ?_, handshakePacketWithTypeId_eq_ok h⟩
  rw [List.length_take]
  omega

end HandshakePacket

theorem Zid.zidWithData_eq_ok {data : NSData} {zid : Zid} (h : Zid.zidWithData data = .ok zid) :
    zid.getData = data := by
  unfold zidWithData at h
  split at h
  · rw [← Except.ok.inj h]
  · cases h

theorem Zid.ext_data {z w : Zid} (h : z.getData = w.getData) : z = w := by
  cases z
  cases w
  cases h
  rfl

namespace HelloPacket

/-- Whoever reads the Hello finds its ZID. -/
structure Readable (p : HelloPacket) : Prop where
  typeId : p.embeddedIntoHandshakePacket.typeId = handshakeTypeHello
  zid : p.embeddedIntoHandshakePacket.payload.subdataWithRange zidOffset zidLength =
    .ok p.zid.getData

theorem parsedAsHello_eq_ok {packet : HandshakePacket} {p : HelloPacket}
    (h : packet.parsedAsHello = .ok p) :
    packet.typeId = handshakeTypeHello ∧ p.embeddedIntoHandshakePacket = packet ∧
      packet.payload.subdataWithRange zidOffset zidLength = .ok p.zid.getData := by
  simp only [HandshakePacket.parsedAsHello, helloPacketParsedFromHandshakePacket,
    Throws.bind_eq_ok, checkOperation_eq_ok] at h
  obtain ⟨-, htypeId, -, -, _, -, _, -, _, -, zidData, hzidData, zid, hzid, h⟩ := h
  -- the flags and the ids do not matter here
  obtain ⟨_, -, _, -, _, -, _, -, _, -, _, -, _, -, _, -, _, -, specIds, -, h⟩ := h
  split at h
  case h_1 =>
    obtain rfl := Throws.pure_eq_ok.mp h
    refine ⟨htypeId, rfl, ?_⟩
    rw [hzidData, Zid.zidWithData_eq_ok hzid]
  case h_2 => cases h

theorem Readable.parsed {p q : HelloPacket} (hp : p.Readable)
    (h : p.embeddedIntoHandshakePacket.parsedAsHello = .ok q) : q.zid = p.zid := by
  obtain ⟨-, -, hzid⟩ := parsedAsHello_eq_ok h
  exact Zid.ext_data (Except.ok.inj (hzid.symm.trans hp.zid))

theorem readable_of_helloPacketWithVersion [CryptoTools] {fields p : HelloPacket}
    {hmacKey : NSData} (h : fields.helloPacketWithVersion hmacKey = .ok p) : p.Readable := by
  simp only [helloPacketWithVersion, Throws.bind_eq_ok, owsRequire_eq_ok, generatePayload] at h
  obtain ⟨-, -, -, -, -, -, -, hversion, -, hclient, -, hh3, -, -, -, -, -, -, -, -, -, -, payload,
    ⟨flags, -, hpayload⟩, unauthenticated, hunauthenticated, embedding, hembedding, h⟩ := h
  obtain rfl := Throws.pure_eq_ok.mp hpayload
  obtain rfl := HandshakePacket.handshakePacketWithTypeId_eq_ok hunauthenticated
  obtain ⟨digest, -, rfl⟩ := HandshakePacket.withHmacAppended_eq_ok hembedding
  obtain rfl := Throws.pure_eq_ok.mp h
  have hfront : zidOffset = (fields.versionId ++ fields.clientId ++ fields.hashChainH3).length := by
    rw [List.length_append, List.length_append, hversion, hclient, hh3]
    rfl
  constructor
  case typeId => rfl
  case zid =>
    dsimp only
    rw [hfront, ← fields.zid.length_eq, List.append_assoc, List.append_assoc _ flags]
    exact subdataWithRange_of_append

end HelloPacket

theorem HelloAckPacket.typeId_of_helloAckPacket {p : AckPacket} (h : helloAckPacket = .ok p) :
    p.embeddedIntoHandshakePacket.typeId = handshakeTypeHelloAck := by
  obtain ⟨embedding, hembedding, h⟩ := Throws.bind_eq_ok.mp h
  obtain rfl := HandshakePacket.handshakePacketWithTypeId_eq_ok hembedding
  obtain rfl := Throws.pure_eq_ok.mp h
  rfl

theorem ConfirmAckPacket.typeId_of_confirmAckPacket {p : AckPacket}
    (h : confirmAckPacket = .ok p) :
    p.embeddedIntoHandshakePacket.typeId = handshakeTypeConfirmAck := by
  obtain ⟨embedding, hembedding, h⟩ := Throws.bind_eq_ok.mp h
  obtain rfl := HandshakePacket.handshakePacketWithTypeId_eq_ok hembedding
  obtain rfl := Throws.pure_eq_ok.mp h
  rfl

/-- Sizes that the factory makes sure of. -/
structure DhPacketSharedSecretHashes.Valid (hashes : DhPacketSharedSecretHashes) : Prop where
  rs1 : hashes.rs1.length = dhRs1Length
  rs2 : hashes.rs2.length = dhRs2Length
  aux : hashes.aux.length = dhAuxLength
  pbx : hashes.pbx.length = dhPbxLength

namespace DhPacket

/-- Whoever reads the DHPart finds its public key. -/
structure Readable (p : DhPacket) (isPart1 : Bool) : Prop where
  typeId : p.embeddedIntoHandshakePacket.typeId = dhTypeId isPart1
  publicKeyData : (p.embeddedIntoHandshakePacket.payload.skip pubkeyPayloadOffset >>=
    (·.skipLast handshakeTruncatedHmacLength)) = .ok p.publicKeyData

theorem dhPacketFromHandshakePacket_eq_ok {packet : HandshakePacket} {isPart1 : Bool}
    {p : DhPacket} (h : dhPacketFromHandshakePacket packet isPart1 = .ok p) :
    packet.typeId = dhTypeId isPart1 ∧ p.embeddedIntoHandshakePacket = packet ∧
      (packet.payload.skip pubkeyPayloadOffset >>=
        (·.skipLast handshakeTruncatedHmacLength)) = .ok p.publicKeyData := by
  simp only [dhPacketFromHandshakePacket, Throws.bind_eq_ok, checkOperation_eq_ok] at h
  obtain ⟨-, htypeId, -, -, _, -, _, -, skipped, hskipped, publicKeyData, hpublicKeyData, h⟩ := h
  obtain rfl := Throws.pure_eq_ok.mp h
  exact ⟨htypeId, rfl, Throws.bind_eq_ok.mpr ⟨skipped, hskipped, hpublicKeyData⟩⟩

theorem Readable.parsed {p q : DhPacket} {isPart1 : Bool} (hp : p.Readable isPart1)
    (h : dhPacketFromHandshakePacket p.embeddedIntoHandshakePacket isPart1 = .ok q) :
    q.publicKeyData = p.publicKeyData := by
  obtain ⟨-, -, hpublicKeyData⟩ := dhPacketFromHandshakePacket_eq_ok h
  exact Except.ok.inj (hpublicKeyData.symm.trans hp.publicKeyData)

theorem readable_of_dhPacketWithHashChainH0 [CryptoTools] {hashChainH0 publicKeyData : NSData}
    {hashes : DhPacketSharedSecretHashes} (hhashes : hashes.Valid) {isPart1 : Bool} {p : DhPacket}
    (h : dhPacketWithHashChainH0 hashChainH0 hashes publicKeyData isPart1 = .ok p) :
    p.Readable isPart1 ∧ p.publicKeyData = publicKeyData := by
  simp only [dhPacketWithHashChainH0, Throws.bind_eq_ok, owsRequire_eq_ok,
    requireState_eq_ok] at h
  obtain ⟨-, -, -, hh1, unauthenticated, hunauthenticated, embedding, hembedding, h⟩ := h
  obtain rfl := HandshakePacket.handshakePacketWithTypeId_eq_ok hunauthenticated
  obtain ⟨digest, hdigest, rfl⟩ := HandshakePacket.withHmacAppended_eq_ok hembedding
  obtain rfl := Throws.pure_eq_ok.mp h
  refine ⟨⟨rfl, ?_⟩, rfl⟩
  let front := hashChainH0.hashWithSha256 ++ hashes.rs1 ++ hashes.rs2 ++ hashes.aux ++ hashes.pbx
  have hfront : front.length = pubkeyPayloadOffset := by
    simp only [front, List.length_append, hh1, hhashes.rs1, hhashes.rs2, hhashes.aux, hhashes.pbx]
    rfl
  show (NSData.skip (front ++ publicKeyData ++ digest) pubkeyPayloadOffset >>= _) = _
  rw [Throws.bind_eq_ok]
  refine ⟨publicKeyData ++ digest, NSData.skip_eq_ok.mpr ⟨?_, ?_⟩,
    NSData.skipLast_eq_ok.mpr ⟨?_, ?_⟩⟩
  · rw [← hfront, List.append_assoc]
    exact (List.prefix_append front _).length_le
  · rw [← hfront, List.append_assoc, List.drop_left]
  · rw [← hdigest, List.length_append]
    omega
  · rw [← hdigest, List.length_append, Nat.add_sub_cancel, List.take_left]

end DhPacket

namespace CommitPacket

/-- Whoever reads the Commit finds the id of the key agreement. -/
structure Readable (p : CommitPacket) : Prop where
  typeId : p.embeddedIntoHandshakePacket.typeId = handshakeTypeCommit
  agreementSpecId : p.embeddedIntoHandshakePacket.payload.subdataWithRange agreeSpecOffset
    agreeSpecLength = .ok p.agreementSpecId

theorem parsedAsCommitPacket_eq_ok {packet : HandshakePacket} {p : CommitPacket}
    (h : packet.parsedAsCommitPacket = .ok p) :
    packet.typeId = handshakeTypeCommit ∧ p.embeddedIntoHandshakePacket = packet ∧
      packet.payload.subdataWithRange agreeSpecOffset agreeSpecLength =
        .ok p.agreementSpecId := by
  simp only [HandshakePacket.parsedAsCommitPacket, commitPacketParsedFromHandshakePacket,
    Throws.bind_eq_ok, checkOperation_eq_ok] at h
  obtain ⟨-, htypeId, -, -, _, -, _, -, _, -, _, -, _, -, _, -, agreementSpecId, hagreementSpecId,
    _, -, _, -, h⟩ := h
  obtain rfl := Throws.pure_eq_ok.mp h
  exact ⟨htypeId, rfl, hagreementSpecId⟩

theorem Readable.parsed {p q : CommitPacket} (hp : p.Readable)
    (h : p.embeddedIntoHandshakePacket.parsedAsCommitPacket = .ok q) :
    q.agreementSpecId = p.agreementSpecId := by
  obtain ⟨-, -, hagreementSpecId⟩ := parsedAsCommitPacket_eq_ok h
  exact Except.ok.inj (hagreementSpecId.symm.trans hp.agreementSpecId)

theorem readable_of_commitPacketWithHashChainH2 [CryptoTools] {fields p : CommitPacket}
    {hmacKey : NSData} (h : fields.commitPacketWithHashChainH2 hmacKey = .ok p) :
    p.Readable ∧ p.agreementSpecId = fields.agreementSpecId := by
  simp only [commitPacketWithHashChainH2, Throws.bind_eq_ok, owsRequire_eq_ok] at h
  obtain ⟨-, hh2, -, hhash, -, hcipher, -, hauth, -, hagreement, -, -, unauthenticated,
    hunauthenticated, embedding, hembedding, h⟩ := h
  obtain rfl := HandshakePacket.handshakePacketWithTypeId_eq_ok hunauthenticated
  obtain ⟨digest, -, rfl⟩ := HandshakePacket.withHmacAppended_eq_ok hembedding
  obtain rfl := Throws.pure_eq_ok.mp h
  refine ⟨⟨rfl, ?_⟩, rfl⟩
  have hfront : agreeSpecOffset = (fields.h2 ++ fields.zid.getData ++ fields.hashSpecId ++
      fields.cipherSpecId ++ fields.authSpecId).length := by
    simp only [List.length_append, hh2, fields.zid.length_eq, hhash, hcipher, hauth]
    rfl
  dsimp only
  rw [hfront, ← hagreement, List.append_assoc, List.append_assoc _ fields.sasSpecId]
  exact subdataWithRange_of_append

end CommitPacket

theorem ConfirmPacket.typeId_of_confirmPacketWithHashChainH0 [CryptoTools]
    {hashChainH0 macKey cipherKey iv : NSData} {flags interval : UInt32} {isPart1 : Bool}
    {p : ConfirmPacket} (h : confirmPacketWithHashChainH0 hashChainH0 flags interval macKey
      cipherKey iv isPart1 = .ok p) :
    p.embeddedIntoHandshakePacket.typeId = confirmTypeId isPart1 := by
  simp only [confirmPacketWithHashChainH0, Throws.bind_eq_ok] at h
  obtain ⟨-, -, -, -, _, -, _, -, embedding, hembedding, h⟩ := h
  obtain rfl := HandshakePacket.handshakePacketWithTypeId_eq_ok hembedding
  obtain rfl := Throws.pure_eq_ok.mp h
  rfl

end SignalIOS.Zrtp
