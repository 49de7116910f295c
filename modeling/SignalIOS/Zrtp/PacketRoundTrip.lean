import SignalIOS.Zrtp.Authentication
import SignalIOS.Zrtp.HelloCodec

/-! Commit, DHPart and Confirm packets that are embedded, and parsed again. -/
namespace SignalIOS.Zrtp

/-- Sizes of a hash and of an HMAC with SHA256, and that cipher feedback mode keeps the length of
a message and undoes itself under the same key and initialization vector. -/
structure CodecLaws [CryptoTools] : Prop where
  length_sha256 : ∀ data, (CryptoTools.sha256 data).length = 32
  length_hmacSha256 : ∀ key data, (CryptoTools.hmacSha256 key data).length = 32
  length_aesCfbEncrypt : ∀ key iv data,
    (CryptoTools.aesCfbEncrypt key iv data).length = data.length
  aesCfbDecrypt_aesCfbEncrypt : ∀ key iv data,
    CryptoTools.aesCfbDecrypt key iv (CryptoTools.aesCfbEncrypt key iv data) = data

theorem CodecLaws.withHmacAppended_of_length [CryptoTools] (htools : CodecLaws)
    {p : HandshakePacket} (macKey : NSData) (htypeId : p.typeId.length = handshakeTypeIdLength) :
    ∃ digest : NSData, digest.length = handshakeTruncatedHmacLength ∧
      p.withHmacAppended macKey = .ok ⟨p.typeId, p.payload ++ digest⟩ := by
  obtain ⟨digest, hembedding⟩ :=
    HelloPacket.withHmacAppended_of_length htools.length_hmacSha256 macKey htypeId
  obtain ⟨digest', hdigest', heq⟩ := HandshakePacket.withHmacAppended_eq_ok hembedding
  have hpayload : p.payload ++ digest = p.payload ++ digest' :=
    congrArg HandshakePacket.payload heq
  rw [← List.append_cancel_left hpayload] at hdigest'
  exact ⟨digest, hdigest', hembedding⟩

theorem handshakePacketWithTypeId_of_length {typeId : NSData} (payload : NSData)
    (h : typeId.length = handshakeTypeIdLength) :
    HandshakePacket.handshakePacketWithTypeId typeId payload = .ok ⟨typeId, payload⟩ := by
  simp only [HandshakePacket.handshakePacketWithTypeId, owsRequire, if_pos h]
  rfl

theorem Zid.zidWithData_getData (zid : Zid) : Zid.zidWithData zid.getData = .ok zid := by
  unfold Zid.zidWithData
  rw [dif_pos zid.length_eq]

/-- A packet that is made is parsed from its embedding with the same fields, keeps that embedding,
and is embedded alike when it is made again of what has been parsed. -/
def RoundTripsThrough {P : Type} (embeddedIntoHandshakePacket : P → HandshakePacket)
    (SameFields : P → P → Prop) (made : Throws P) (parsedFrom : HandshakePacket → Throws P)
    (madeAgain : P → Throws P) : Prop :=
  ∃ p q r, made = .ok p ∧ parsedFrom (embeddedIntoHandshakePacket p) = .ok q ∧ SameFields p q ∧
    embeddedIntoHandshakePacket q = embeddedIntoHandshakePacket p ∧ madeAgain q = .ok r ∧
    embeddedIntoHandshakePacket r = embeddedIntoHandshakePacket p

namespace CommitPacket

/-- Sizes of the fields, apart from the ZID, which is of its size anyway. -/
structure Valid (p : CommitPacket) : Prop where
  h2 : p.h2.length = hashChainItemLength
  hashSpecId : p.hashSpecId.length = hashSpecLength
  cipherSpecId : p.cipherSpecId.length = cipherSpecLength
  authSpecId : p.authSpecId.length = authSpecLength
  agreementSpecId : p.agreementSpecId.length = agreeSpecLength
  sasSpecId : p.sasSpecId.length = sasSpecLength
  dhPart2HelloCommitment : p.dhPart2HelloCommitment.length = commitLength

structure SameFields (p q : CommitPacket) : Prop where
  h2 : q.h2 = p.h2
  zid : q.zid = p.zid
  hashSpecId : q.hashSpecId = p.hashSpecId
  cipherSpecId : q.cipherSpecId = p.cipherSpecId
  authSpecId : q.authSpecId = p.authSpecId
  agreementSpecId : q.agreementSpecId = p.agreementSpecId
  sasSpecId : q.sasSpecId = p.sasSpecId
  dhPart2HelloCommitment : q.dhPart2HelloCommitment = p.dhPart2HelloCommitment

theorem parsed_of_layout {p : CommitPacket} (hp : p.Valid) {payload digest : NSData}
    (hdigest : digest.length = handshakeTruncatedHmacLength)
    (hpayload : payload = p.h2 ++ p.zid.getData ++ p.hashSpecId ++ p.cipherSpecId ++
      p.authSpecId ++ p.agreementSpecId ++ p.sasSpecId ++ p.dhPart2HelloCommitment ++ digest) :
    (HandshakePacket.mk handshakeTypeCommit payload).parsedAsCommitPacket =
      .ok { p with embeddedIntoHandshakePacket := ⟨handshakeTypeCommit, payload⟩ } := by
  have hlength : payload.length = commitOffset + commitLength + handshakeTruncatedHmacLength := by
    simp only [hpayload, List.length_append, hp.h2, p.zid.length_eq, hp.hashSpecId,
      hp.cipherSpecId, hp.authSpecId, hp.agreementSpecId, hp.sasSpecId, hp.dhPart2HelloCommitment,
      hdigest]
    rfl
  have hdrop : payload.drop 0 = p.h2 ++ (p.zid.getData ++ (p.hashSpecId ++ (p.cipherSpecId ++
      (p.authSpecId ++ (p.agreementSpecId ++ (p.sasSpecId ++
        (p.dhPart2HelloCommitment ++ digest))))))) := by
    rw [hpayload, List.drop_zero]
    simp only [List.append_assoc]
  obtain ⟨hh2, hdrop, hle⟩ := NSData.subdataWithRange_step hdrop hp.h2 (Nat.zero_le _)
  rw [Nat.zero_add] at hdrop hle
  obtain ⟨hzid, hdrop, hle⟩ := NSData.subdataWithRange_step hdrop p.zid.length_eq hle
  obtain ⟨hhash, hdrop, hle⟩ := NSData.subdataWithRange_step hdrop hp.hashSpecId hle
  obtain ⟨hcipher, hdrop, hle⟩ := NSData.subdataWithRange_step hdrop hp.cipherSpecId hle
  obtain ⟨hauth, hdrop, hle⟩ := NSData.subdataWithRange_step hdrop hp.authSpecId hle
  obtain ⟨hagree, hdrop, hle⟩ := NSData.subdataWithRange_step hdrop hp.agreementSpecId hle
  obtain ⟨hsas, hdrop, hle⟩ := NSData.subdataWithRange_step hdrop hp.sasSpecId hle
  obtain ⟨hcommitment, -, -⟩ :=
    NSData.subdataWithRange_step hdrop hp.dhPart2HelloCommitment hle
  change payload.subdataWithRange hashSpecOffset _ = _ at hhash
  change payload.subdataWithRange cipherSpecOffset _ = _ at hcipher
  change payload.subdataWithRange authSpecOffset _ = _ at hauth
  change payload.subdataWithRange agreeSpecOffset _ = _ at hagree
  change payload.subdataWithRange sasSpecOffset _ = _ at hsas
  change payload.subdataWithRange commitOffset _ = _ at hcommitment
  unfold HandshakePacket.parsedAsCommitPacket commitPacketParsedFromHandshakePacket checkOperation
  simp only [if_true, if_pos hlength, hh2, hzid, Zid.zidWithData_getData, hhash, hcipher, hauth,
    hagree, hsas, hcommitment, bind, Except.bind]
  rfl

variable [CryptoTools]

theorem commitPacketWithHashChainH2_of_valid (htools : CodecLaws) {p : CommitPacket}
    (hp : p.Valid) (hmacKey : NSData) : ∃ digest : NSData,
      digest.length = handshakeTruncatedHmacLength ∧ p.commitPacketWithHashChainH2 hmacKey =
        .ok { p with embeddedIntoHandshakePacket := ⟨handshakeTypeCommit,
          p.h2 ++ p.zid.getData ++ p.hashSpecId ++ p.cipherSpecId ++ p.authSpecId ++
            p.agreementSpecId ++ p.sasSpecId ++ p.dhPart2HelloCommitment ++ digest⟩ } := by
  obtain ⟨digest, hdigest, hembedding⟩ := htools.withHmacAppended_of_length
    (p := ⟨handshakeTypeCommit, p.h2 ++ p.zid.getData ++ p.hashSpecId ++ p.cipherSpecId ++
      p.authSpecId ++ p.agreementSpecId ++ p.sasSpecId ++ p.dhPart2HelloCommitment⟩)
    hmacKey rfl
  refine ⟨digest, hdigest, ?_⟩
  unfold commitPacketWithHashChainH2 owsRequire
  simp only [if_pos hp.h2, if_pos hp.hashSpecId, if_pos hp.cipherSpecId, if_pos hp.authSpecId,
    if_pos hp.agreementSpecId, if_pos hp.sasSpecId,
    handshakePacketWithTypeId_of_length _ (rfl : handshakeTypeCommit.length = _), hembedding,
    bind, Except.bind]
  rfl

theorem roundTripsThrough_of_valid (htools : CodecLaws) {p : CommitPacket} (hp : p.Valid)
    (hmacKey : NSData) : RoundTripsThrough embeddedIntoHandshakePacket SameFields
      (p.commitPacketWithHashChainH2 hmacKey) HandshakePacket.parsedAsCommitPacket
      (fun q => q.commitPacketWithHashChainH2 hmacKey) := by
  obtain ⟨digest, hdigest, hmade⟩ := commitPacketWithHashChainH2_of_valid htools hp hmacKey
  have hparsed := parsed_of_layout hp hdigest rfl
  exact ⟨_, _, _, hmade, hparsed, ⟨rfl, rfl, rfl, rfl, rfl, rfl, rfl, rfl⟩, rfl, hmade, rfl⟩

end CommitPacket

namespace DhPacket

structure SameFields (p q : DhPacket) : Prop where
  hashChainH1 : q.hashChainH1 = p.hashChainH1
  sharedSecretHashes : q.sharedSecretHashes = p.sharedSecretHashes
  publicKeyData : q.publicKeyData = p.publicKeyData
  isPart1 : q.isPart1 = p.isPart1

/-- Whichever part it is, the part flag of what is parsed is not set. -/
theorem parsed_of_layout {hashChainH1 payload digest : NSData} (publicKeyData : NSData)
    {hashes : DhPacketSharedSecretHashes} (hh1 : hashChainH1.length = dhHashChainH1Length)
    (hhashes : hashes.Valid) (hdigest : digest.length = handshakeTruncatedHmacLength)
    (hpayload : payload = hashChainH1 ++ hashes.rs1 ++ hashes.rs2 ++ hashes.aux ++ hashes.pbx ++
      publicKeyData ++ digest) (isPart1 : Bool) :
    dhPacketFromHandshakePacket ⟨dhTypeId isPart1, payload⟩ isPart1 =
      .ok ⟨hashChainH1, hashes, publicKeyData, false, ⟨dhTypeId isPart1, payload⟩⟩ := by
  have hlength : payload.length = minDhPktLength + publicKeyData.length := by
    simp only [hpayload, List.length_append, hh1, hhashes.rs1, hhashes.rs2, hhashes.aux,
      hhashes.pbx, hdigest, minDhPktLength, pubkeyPayloadOffset, pbxPayloadOffset,
      auxPayloadOffset, rs2PayloadOffset, rs1PayloadOffset]
    omega
  have hmin : payload.length ≥ minDhPktLength := by omega
  have hdrop : payload.drop 0 = hashChainH1 ++ (hashes.rs1 ++ (hashes.rs2 ++ (hashes.aux ++
      (hashes.pbx ++ (publicKeyData ++ digest))))) := by
    rw [hpayload, List.drop_zero]
    simp only [List.append_assoc]
  have htake : payload.take hashChainItemLength = .ok hashChainH1 := by
    rw [NSData.take_eq_ok]
    constructor
    · have : hashChainItemLength ≤ minDhPktLength := by decide
      omega
    · rw [← List.drop_zero (l := payload), hdrop]
      exact (List.take_left' hh1).symm
  obtain ⟨-, hdrop, hle⟩ := NSData.subdataWithRange_step hdrop hh1 (Nat.zero_le _)
  rw [Nat.zero_add] at hdrop hle
  obtain ⟨hrs1, hdrop, hle⟩ := NSData.subdataWithRange_step hdrop hhashes.rs1 hle
  obtain ⟨hrs2, hdrop, hle⟩ := NSData.subdataWithRange_step hdrop hhashes.rs2 hle
  obtain ⟨haux, hdrop, hle⟩ := NSData.subdataWithRange_step hdrop hhashes.aux hle
  obtain ⟨hpbx, hdrop, hle⟩ := NSData.subdataWithRange_step hdrop hhashes.pbx hle
  change payload.subdataWithRange rs1PayloadOffset _ = _ at hrs1
  change payload.subdataWithRange rs2PayloadOffset _ = _ at hrs2
  change payload.subdataWithRange auxPayloadOffset _ = _ at haux
  change payload.subdataWithRange pbxPayloadOffset _ = _ at hpbx
  change payload.drop pubkeyPayloadOffset = _ at hdrop
  have hskip : payload.skip pubkeyPayloadOffset = .ok (publicKeyData ++ digest) :=
    NSData.skip_eq_ok.mpr ⟨hle, hdrop.symm⟩
  have hskipLast : (publicKeyData ++ digest).skipLast handshakeTruncatedHmacLength =
      .ok publicKeyData := by
    rw [NSData.skipLast_eq_ok, List.length_append, hdigest]
    constructor
    · omega
    · rw [Nat.add_sub_cancel, List.take_left]
  have hparsedHashes : getSharedSecretHashesFromPayload payload = .ok hashes := by
    simp only [getSharedSecretHashesFromPayload, hrs1, hrs2, haux, hpbx,
      DhPacketSharedSecretHashes.dhPacketSharedSecretHashesWithRs1, owsRequire,
      if_pos hhashes.rs1, if_pos hhashes.rs2, if_pos hhashes.aux, if_pos hhashes.pbx, bind,
      Except.bind]
    rfl
  unfold dhPacketFromHandshakePacket checkOperation
  simp only [if_true, if_pos hmin, htake, hparsedHashes, hskip, hskipLast, bind, Except.bind]
  rfl

variable [CryptoTools]

theorem dhPacketWithHashChainH0_of_length (htools : CodecLaws) {hashChainH0 : NSData}
    (hh0 : hashChainH0.length = hashChainItemLength) (hashes : DhPacketSharedSecretHashes)
    (publicKeyData : NSData) (isPart1 : Bool) : ∃ digest : NSData,
      digest.length = handshakeTruncatedHmacLength ∧
      dhPacketWithHashChainH0 hashChainH0 hashes publicKeyData isPart1 =
        .ok ⟨hashChainH0.hashWithSha256, hashes, publicKeyData, isPart1,
          ⟨dhTypeId isPart1, hashChainH0.hashWithSha256 ++ hashes.rs1 ++ hashes.rs2 ++
            hashes.aux ++ hashes.pbx ++ publicKeyData ++ digest⟩⟩ := by
  have hh1 : hashChainH0.hashWithSha256.length = hashChainItemLength := htools.length_sha256 _
  have htypeId : (dhTypeId isPart1).length = handshakeTypeIdLength := by
    cases isPart1 <;> rfl
  obtain ⟨digest, hdigest, hembedding⟩ := htools.withHmacAppended_of_length
    (p := ⟨dhTypeId isPart1, hashChainH0.hashWithSha256 ++ hashes.rs1 ++ hashes.rs2 ++
      hashes.aux ++ hashes.pbx ++ publicKeyData⟩) hashChainH0 htypeId
  refine ⟨digest, hdigest, ?_⟩
  unfold dhPacketWithHashChainH0 owsRequire requireState
  simp only [if_pos hh0, if_pos hh1, handshakePacketWithTypeId_of_length _ htypeId, hembedding,
    bind, Except.bind]
  rfl

/-- The part that a packet is gets lost where it is the first one. -/
theorem roundTripsThrough_iff_notPart1 (htools : CodecLaws) {hashChainH0 : NSData}
    (hh0 : hashChainH0.length = hashChainItemLength) {hashes : DhPacketSharedSecretHashes}
    (hhashes : hashes.Valid) (publicKeyData : NSData) (isPart1 : Bool) :
    RoundTripsThrough embeddedIntoHandshakePacket SameFields
      (dhPacketWithHashChainH0 hashChainH0 hashes publicKeyData isPart1)
      (fun packet => dhPacketFromHandshakePacket packet isPart1)
      (fun q => dhPacketWithHashChainH0 hashChainH0 q.sharedSecretHashes q.publicKeyData
        q.isPart1) ↔ isPart1 = false := by
  have hh1 : hashChainH0.hashWithSha256.length = dhHashChainH1Length := htools.length_sha256 _
  obtain ⟨digest, hdigest, hmade⟩ :=
    dhPacketWithHashChainH0_of_length htools hh0 hashes publicKeyData isPart1
  have hparsed := parsed_of_layout publicKeyData hh1 hhashes hdigest rfl isPart1
  constructor
  · rintro ⟨p, q, -, hp, hq, hsame, -⟩
    obtain rfl := Except.ok.inj (hmade.symm.trans hp)
    obtain rfl := Except.ok.inj (hparsed.symm.trans hq)
    exact hsame.isPart1.symm
  · rintro rfl
    exact ⟨_, _, _, hmade, hparsed, ⟨rfl, rfl, rfl, rfl⟩, rfl, hmade, rfl⟩

end DhPacket

namespace ConfirmPacket

structure SameFields (p q : ConfirmPacket) : Prop where
  hashChainH0 : q.hashChainH0 = p.hashChainH0
  unusedAndSignatureLengthAndFlags :
    q.unusedAndSignatureLengthAndFlags = p.unusedAndSignatureLengthAndFlags
  cacheExperationInterval : q.cacheExperationInterval = p.cacheExperationInterval
  iv : q.iv = p.iv
  isPart1 : q.isPart1 = p.isPart1

/-- `sensitiveData` of `generateEmbedding:andMacKey:`. -/
def sensitiveData (hashChainH0 : NSData) (flags interval : UInt32) : NSData :=
  hashChainH0 ++ dataWithBigEndianBytesOfUInt32 flags ++ dataWithBigEndianBytesOfUInt32 interval

theorem length_sensitiveData {hashChainH0 : NSData}
    (hh0 : hashChainH0.length = hashChainItemLength) (flags interval : UInt32) :
    (sensitiveData hashChainH0 flags interval).length =
      hashChainItemLength + wordLength + wordLength := by
  rw [sensitiveData, List.length_append, List.length_append, hh0]
  rfl

theorem read_sensitiveData {hashChainH0 : NSData}
    (hh0 : hashChainH0.length = hashChainItemLength) (flags interval : UInt32) :
    (sensitiveData hashChainH0 flags interval).take hashChainItemLength = .ok hashChainH0 ∧
      (sensitiveData hashChainH0 flags interval).bigEndianUInt32At hashChainItemLength =
        .ok flags ∧
      (sensitiveData hashChainH0 flags interval).bigEndianUInt32At
        (hashChainItemLength + wordLength) = .ok interval := by
  have hlayout : sensitiveData hashChainH0 flags interval = hashChainH0 ++
      (dataWithBigEndianBytesOfUInt32 flags ++ (dataWithBigEndianBytesOfUInt32 interval ++ [])) := by
    rw [sensitiveData, List.append_assoc, List.append_nil]
  have hwords := (congrArg (List.drop hashChainItemLength) hlayout).trans (List.drop_left' hh0)
  have hlast := NSData.drop_of_drop hwords
  refine ⟨?_, NSData.bigEndianUInt32At_of_drop hwords, NSData.bigEndianUInt32At_of_drop hlast⟩
  rw [NSData.take_eq_ok, length_sensitiveData hh0, hlayout]
  exact ⟨by omega, (List.take_left' hh0).symm⟩

variable [CryptoTools]

theorem hmacTaken_of_laws (htools : CodecLaws) (data macKey : NSData) : ∃ hmac : NSData,
    hmac.length = truncatedHmacLength ∧
      (data.hmacWithSha256WithKey macKey).take truncatedHmacLength = .ok hmac := by
  have hlength : (data.hmacWithSha256WithKey macKey).length = 32 := htools.length_hmacSha256 _ _
  have hle : truncatedHmacLength ≤ (data.hmacWithSha256WithKey macKey).length := by
    rw [hlength]
    decide
  refine ⟨_, ?_, NSData.take_eq_ok.mpr ⟨hle, rfl⟩⟩
  rw [List.length_take]
  omega

theorem confirmPacketWithHashChainH0_of_length (htools : CodecLaws) {hashChainH0 iv : NSData}
    (hh0 : hashChainH0.length = hashChainItemLength) (hiv : iv.length = confirmIvLength)
    (flags interval : UInt32) (macKey : NSData) {cipherKey : NSData}
    (hkey : cipherKey.length = aes128KeyLength) (isPart1 : Bool) : ∃ encrypted hmac : NSData,
      encrypted =
        CryptoTools.aesCfbEncrypt cipherKey iv (sensitiveData hashChainH0 flags interval) ∧
      hmac.length = truncatedHmacLength ∧
      (encrypted.hmacWithSha256WithKey macKey).take truncatedHmacLength = .ok hmac ∧
      confirmPacketWithHashChainH0 hashChainH0 flags interval macKey cipherKey iv isPart1 =
        .ok ⟨hashChainH0, flags, interval, iv, isPart1, none,
          ⟨confirmTypeId isPart1, hmac ++ iv ++ encrypted⟩⟩ := by
  have htypeId : (confirmTypeId isPart1).length = handshakeTypeIdLength := by
    cases isPart1 <;> rfl
  have hencrypted := NSData.usingCipher_eq_ok CryptoTools.aesCfbEncrypt
    (sensitiveData hashChainH0 flags interval) hkey hiv
  rw [sensitiveData] at hencrypted
  obtain ⟨hmac, hlength, hhmac⟩ := hmacTaken_of_laws htools (CryptoTools.aesCfbEncrypt cipherKey
    iv (sensitiveData hashChainH0 flags interval)) macKey
  refine ⟨_, hmac, rfl, hlength, hhmac, ?_⟩
  rw [sensitiveData] at hhmac
  unfold confirmPacketWithHashChainH0 owsRequire NSData.encryptWithAesInCipherFeedbackMode
  simp only [if_pos hiv, if_pos hh0, hencrypted, hhmac,
    handshakePacketWithTypeId_of_length _ htypeId, bind, Except.bind]
  rfl

theorem parsed_of_layout (htools : CodecLaws) {hashChainH0 iv encrypted hmac payload : NSData}
    (hh0 : hashChainH0.length = hashChainItemLength) (hiv : iv.length = confirmIvLength)
    {flags interval : UInt32} {macKey cipherKey : NSData}
    (hkey : cipherKey.length = aes128KeyLength) (hencrypted : encrypted =
      CryptoTools.aesCfbEncrypt cipherKey iv (sensitiveData hashChainH0 flags interval))
    (hlength : hmac.length = truncatedHmacLength)
    (hhmac : (encrypted.hmacWithSha256WithKey macKey).take truncatedHmacLength = .ok hmac)
    (hpayload : payload = hmac ++ iv ++ encrypted) (isPart1 : Bool) :
    confirmPacketParsedFromHandshakePacket ⟨confirmTypeId isPart1, payload⟩ macKey cipherKey
      isPart1 = .ok ⟨hashChainH0, flags, interval, iv, isPart1, some hmac,
        ⟨confirmTypeId isPart1, payload⟩⟩ := by
  have hencryptedLength : encrypted.length = hashChainItemLength + wordLength + wordLength := by
    rw [hencrypted, htools.length_aesCfbEncrypt, length_sensitiveData hh0]
  have hpayloadLength : payload.length =
      truncatedHmacLength + confirmIvLength + hashChainItemLength + wordLength + wordLength := by
    rw [hpayload, List.length_append, List.length_append, hlength, hiv, hencryptedLength]
    rfl
  have htruncated : payload.take truncatedHmacLength = .ok hmac := by
    rw [NSData.take_eq_ok, hpayloadLength, hpayload, List.append_assoc]
    exact ⟨by decide, (List.take_left' hlength).symm⟩
  have hdrop : payload.drop truncatedHmacLength = iv ++ encrypted := by
    rw [hpayload, List.append_assoc]
    exact List.drop_left' hlength
  have hle : truncatedHmacLength ≤ payload.length := by
    rw [hpayloadLength]
    decide
  obtain ⟨hreadIv, hrest, hskip⟩ := NSData.subdataWithRange_step hdrop hiv hle
  have hvolatile : payload.subdataVolatileWithRange truncatedHmacLength confirmIvLength =
      .ok iv := by
    have hivLe : confirmIvLength ≤ payload.length := by omega
    simp only [NSData.subdataVolatileWithRange, owsRequire, if_pos hle, if_pos hivLe,
      if_pos hskip, hreadIv]
    rfl
  have hskipped : payload.skip (truncatedHmacLength + confirmIvLength) = .ok encrypted :=
    NSData.skip_eq_ok.mpr ⟨hskip, hrest.symm⟩
  have hequal : hmac.isEqualToDataTimingSafe hmac = true :=
    NSData.isEqualToDataTimingSafe_iff.mpr rfl
  have hdecrypted : encrypted.decryptWithAesInCipherFeedbackMode cipherKey iv =
      .ok (sensitiveData hashChainH0 flags interval) := by
    rw [NSData.decryptWithAesInCipherFeedbackMode, NSData.usingCipher_eq_ok _ _ hkey hiv,
      hencrypted, htools.aesCfbDecrypt_aesCfbEncrypt]
  have hplain : getDecryptedDataFromPayload payload macKey cipherKey =
      .ok (sensitiveData hashChainH0 flags interval) := by
    simp only [getDecryptedDataFromPayload, checkOperation, hvolatile, hskipped, htruncated,
      hhmac, if_pos hequal, hdecrypted, bind, Except.bind]
  obtain ⟨hreadH0, hflags, hinterval⟩ := read_sensitiveData hh0 flags interval
  unfold confirmPacketParsedFromHandshakePacket checkOperation
  simp only [if_true, if_pos hpayloadLength, hplain, hreadH0, hflags, hinterval, htruncated,
    hvolatile, bind, Except.bind]
  rfl

theorem roundTripsThrough_of_length (htools : CodecLaws) {hashChainH0 iv : NSData}
    (hh0 : hashChainH0.length = hashChainItemLength) (hiv : iv.length = confirmIvLength)
    (flags interval : UInt32) (macKey : NSData) {cipherKey : NSData}
    (hkey : cipherKey.length = aes128KeyLength) (isPart1 : Bool) :
    RoundTripsThrough embeddedIntoHandshakePacket SameFields
      (confirmPacketWithHashChainH0 hashChainH0 flags interval macKey cipherKey iv isPart1)
      (fun packet => confirmPacketParsedFromHandshakePacket packet macKey cipherKey isPart1)
      (fun q => confirmPacketWithHashChainH0 q.hashChainH0 q.unusedAndSignatureLengthAndFlags
        q.cacheExperationInterval macKey cipherKey q.iv q.isPart1) := by
  obtain ⟨encrypted, hmac, hencrypted, hlength, hhmac, hmade⟩ :=
    confirmPacketWithHashChainH0_of_length htools hh0 hiv flags interval macKey hkey isPart1
  have hparsed := parsed_of_layout htools hh0 hiv hkey hencrypted hlength hhmac rfl isPart1
  exact ⟨_, _, _, hmade, hparsed, ⟨rfl, rfl, rfl, rfl, rfl⟩, rfl, hmade, rfl⟩

end ConfirmPacket

/-- The parsing function for the part. -/
def HandshakePacket.parsedAsDh (p : HandshakePacket) (isPart1 : Bool) : Throws DhPacket :=
  if isPart1 then p.parsedAsDh1 else p.parsedAsDh2

def HandshakePacket.parsedAsConfirmAuthenticated [CryptoTools] (p : HandshakePacket)
    (macKey cipherKey : NSData) (isPart1 : Bool) : Throws ConfirmPacket :=
  if isPart1 then p.parsedAsConfirm1Authenticated macKey cipherKey
  else p.parsedAsConfirm2Authenticated macKey cipherKey

/-- What the factory of a packet is given. -/
inductive FactoryArguments
  | commit (fields : CommitPacket) (hmacKey : NSData)
  | dhPart (hashChainH0 : NSData) (sharedSecretHashes : DhPacketSharedSecretHashes)
      (publicKeyData : NSData) (isPart1 : Bool)
  | confirm (hashChainH0 : NSData) (unusedAndSignatureLengthAndFlags : UInt32)
      (cacheExpirationInterval : UInt32) (macKey cipherKey iv : NSData) (isPart1 : Bool)

namespace FactoryArguments

/-- Sizes of the fields. The public key and the keys of the HMACs are of any size. -/
def Valid : FactoryArguments → Prop
  | .commit fields _ => fields.Valid
  | .dhPart hashChainH0 sharedSecretHashes _ _ =>
    hashChainH0.length = hashChainItemLength ∧ sharedSecretHashes.Valid
  | .confirm hashChainH0 _ _ _ cipherKey iv _ =>
    hashChainH0.length = hashChainItemLength ∧ cipherKey.length = aes128KeyLength ∧
      iv.length = confirmIvLength

def isDhPart1 : FactoryArguments → Bool
  | .dhPart _ _ _ isPart1 => isPart1
  | _ => false

/-- The packet survives its embedding, with the parsing function that goes with its type. -/
def RoundTrips [CryptoTools] : FactoryArguments → Prop
  | .commit fields hmacKey =>
    RoundTripsThrough CommitPacket.embeddedIntoHandshakePacket CommitPacket.SameFields
      (fields.commitPacketWithHashChainH2 hmacKey) HandshakePacket.parsedAsCommitPacket
      fun q => q.commitPacketWithHashChainH2 hmacKey
  | .dhPart hashChainH0 sharedSecretHashes publicKeyData isPart1 =>
    RoundTripsThrough DhPacket.embeddedIntoHandshakePacket DhPacket.SameFields
      (DhPacket.dhPacketWithHashChainH0 hashChainH0 sharedSecretHashes publicKeyData isPart1)
      (HandshakePacket.parsedAsDh · isPart1)
      fun q => DhPacket.dhPacketWithHashChainH0 hashChainH0 q.sharedSecretHashes q.publicKeyData
        q.isPart1
  | .confirm hashChainH0 unused cacheExpirationInterval macKey cipherKey iv isPart1 =>
    RoundTripsThrough ConfirmPacket.embeddedIntoHandshakePacket ConfirmPacket.SameFields
      (ConfirmPacket.confirmPacketWithHashChainH0 hashChainH0 unused cacheExpirationInterval macKey
        cipherKey iv isPart1)
      (HandshakePacket.parsedAsConfirmAuthenticated · macKey cipherKey isPart1)
      fun q => ConfirmPacket.confirmPacketWithHashChainH0 q.hashChainH0
        q.unusedAndSignatureLengthAndFlags q.cacheExperationInterval macKey cipherKey q.iv
        q.isPart1

/-- Whatever the packet is, it survives, unless it is a DHPart1. -/
theorem roundTrips_iff_notDhPart1 [CryptoTools] (htools : CodecLaws)
    {arguments : FactoryArguments} (harguments : arguments.Valid) :
    arguments.RoundTrips ↔ arguments.isDhPart1 = false := by
  cases arguments with
  | commit fields hmacKey =>
    have h := CommitPacket.roundTripsThrough_of_valid htools harguments hmacKey
    exact iff_of_true h rfl
  | dhPart hashChainH0 sharedSecretHashes publicKeyData isPart1 =>
    obtain ⟨hh0, hhashes⟩ := harguments
    have h := DhPacket.roundTripsThrough_iff_notPart1 htools hh0 hhashes publicKeyData isPart1
    cases isPart1 <;> exact h
  | confirm hashChainH0 unused cacheExpirationInterval macKey cipherKey iv isPart1 =>
    obtain ⟨hh0, hkey, hiv⟩ := harguments
    have h := ConfirmPacket.roundTripsThrough_of_length htools hh0 hiv unused
      cacheExpirationInterval macKey hkey isPart1
    cases isPart1 <;> exact iff_of_true h rfl

section Sample

local instance codecCryptoTools : CryptoTools := sampleCryptoTools

theorem length_padded (length : ℕ) (data : NSData) : (padded length data).length = length := by
  rw [padded, List.length_take, List.length_append, List.length_replicate]
  omega

theorem codecLaws_sample : CodecLaws where
  length_sha256 _ := length_padded 32 _
  length_hmacSha256 _ _ := length_padded 32 _
  length_aesCfbEncrypt _ _ _ := rfl
  aesCfbDecrypt_aesCfbEncrypt _ _ _ := rfl

def sampleDhPart (isPart1 : Bool) : FactoryArguments :=
  .dhPart (List.replicate 32 1) (sampleRandom 2).dhSharedSecretHashes [3, 4, 5] isPart1

theorem sampleDhPart_valid (isPart1 : Bool) : (sampleDhPart isPart1).Valid :=
  ⟨rfl, rfl, rfl, rfl, rfl⟩

theorem roundTrips_sampleDhPart2 : (sampleDhPart false).RoundTrips :=
  (roundTrips_iff_notDhPart1 codecLaws_sample (sampleDhPart_valid false)).mpr rfl

/-- The parsed DHPart1 says that it is the second part. -/
theorem dhPart1_loses_part : ¬ ∀ _ : CryptoTools, CodecLaws → ∀ arguments : FactoryArguments,
    arguments.Valid → arguments.RoundTrips := by
  intro h
  obtain ⟨p, q, _, hp, hq, hsame, -⟩ :=
    h codecCryptoTools codecLaws_sample (sampleDhPart true) (sampleDhPart_valid true)
  have hmade : (DhPacket.dhPacketWithHashChainH0 (List.replicate 32 1)
      (sampleRandom 2).dhSharedSecretHashes [3, 4, 5] true).map DhPacket.isPart1 = .ok true := rfl
  have hread : (DhPacket.dhPacketWithHashChainH0 (List.replicate 32 1)
      (sampleRandom 2).dhSharedSecretHashes [3, 4, 5] true >>= fun p =>
        p.embeddedIntoHandshakePacket.parsedAsDh true).map DhPacket.isPart1 = .ok false := rfl
  rw [hp] at hmade hread
  have hparsed := (congrArg (Except.map DhPacket.isPart1) hq).symm.trans hread
  have hwas : p.isPart1 = true := Except.ok.inj hmade
  have his : q.isPart1 = false := Except.ok.inj hparsed
  rw [hsame.isPart1, hwas] at his
  cases his

end Sample

end FactoryArguments
end SignalIOS.Zrtp
