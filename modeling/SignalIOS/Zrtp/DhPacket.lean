import SignalIOS.Zrtp.HelloPacket

/-! Key agreement, the DHPart packets, and the Commit packet. -/
namespace SignalIOS.Zrtp

/-- A participant with its own keys. The computation of the shared value is OpenSSL's. -/
structure KeyAgreementParticipant where
  getProtocol : KeyAgreementProtocol
  getPublicKeyData : NSData
  calculateKeyAgreementAgainstRemotePublicKey : NSData → Throws NSData

def dhRs1Length : ℕ := 8
def dhRs2Length : ℕ := 8
def dhAuxLength : ℕ := 8
def dhPbxLength : ℕ := 8

structure DhPacketSharedSecretHashes where
  rs1 : NSData
  rs2 : NSData
  aux : NSData
  pbx : NSData
  deriving DecidableEq, Repr

def DhPacketSharedSecretHashes.dhPacketSharedSecretHashesWithRs1 (rs1 rs2 aux pbx : NSData) :
    Throws DhPacketSharedSecretHashes := do
  owsRequire (rs1.length = dhRs1Length)
  owsRequire (rs2.length = dhRs2Length)
  owsRequire (aux.length = dhAuxLength)
  owsRequire (pbx.length = dhPbxLength)
  return ⟨rs1, rs2, aux, pbx⟩

structure DhPacket where
  hashChainH1 : NSData
  sharedSecretHashes : DhPacketSharedSecretHashes
  publicKeyData : NSData
  isPart1 : Bool
  embeddedIntoHandshakePacket : HandshakePacket
  deriving DecidableEq, Repr

def dhHashChainH1Length : ℕ := 32
def rs1PayloadOffset : ℕ := dhHashChainH1Length
def rs2PayloadOffset : ℕ := rs1PayloadOffset + dhRs1Length
def auxPayloadOffset : ℕ := rs2PayloadOffset + dhRs2Length
def pbxPayloadOffset : ℕ := auxPayloadOffset + dhAuxLength
def pubkeyPayloadOffset : ℕ := pbxPayloadOffset + dhPbxLength
def minDhPktLength : ℕ := pubkeyPayloadOffset + handshakeTruncatedHmacLength

namespace DhPacket

def dhTypeId (isPart1 : Bool) : NSData := if isPart1 then handshakeTypeDh1 else handshakeTypeDh2

def getSharedSecretHashesFromPayload (payload : NSData) : Throws DhPacketSharedSecretHashes := do
  let rs1 ← payload.subdataWithRange rs1PayloadOffset dhRs1Length
  let rs2 ← payload.subdataWithRange rs2PayloadOffset dhRs2Length
  let aux ← payload.subdataWithRange auxPayloadOffset dhAuxLength
  let pbx ← payload.subdataWithRange pbxPayloadOffset dhPbxLength
  DhPacketSharedSecretHashes.dhPacketSharedSecretHashesWithRs1 rs1 rs2 aux pbx

/-- The part flag is not set in a parsed packet. -/
def dhPacketFromHandshakePacket (handshakePacket : HandshakePacket) (isPart1 : Bool) :
    Throws DhPacket := do
  let payload := handshakePacket.payload
  checkOperation (handshakePacket.typeId = dhTypeId isPart1)
  checkOperation (payload.length ≥ minDhPktLength)
  let hashChainH1 ← payload.take hashChainItemLength
  let sharedSecretHashes ← getSharedSecretHashesFromPayload payload
  let publicKeyData ← (← payload.skip pubkeyPayloadOffset).skipLast handshakeTruncatedHmacLength
  return { hashChainH1, sharedSecretHashes, publicKeyData, isPart1 := false,
           embeddedIntoHandshakePacket := handshakePacket }

variable [CryptoTools]

def dhPacketWithHashChainH0 (hashChainH0 : NSData)
    (sharedSecretHashes : DhPacketSharedSecretHashes) (publicKeyData : NSData) (isPart1 : Bool) :
    Throws DhPacket := do
  owsRequire (hashChainH0.length = hashChainItemLength)
  let hashChainH1 := hashChainH0.hashWithSha256
  -- embedIntoHandshakePacketAuthenticatedWithMacKey
  requireState (hashChainH1.length = hashChainItemLength)
  let payload := hashChainH1 ++ sharedSecretHashes.rs1 ++ sharedSecretHashes.rs2 ++
    sharedSecretHashes.aux ++ sharedSecretHashes.pbx ++ publicKeyData
  let embedding ← (← HandshakePacket.handshakePacketWithTypeId (dhTypeId isPart1) payload)
    |>.withHmacAppended hashChainH0
  return { hashChainH1, sharedSecretHashes, publicKeyData, isPart1,
           embeddedIntoHandshakePacket := embedding }

def dh1PacketWithHashChain (hashChain : HashChain)
    (sharedSecretHashes : DhPacketSharedSecretHashes) (agreer : KeyAgreementParticipant) :
    Throws DhPacket :=
  dhPacketWithHashChainH0 hashChain.h0 sharedSecretHashes agreer.getPublicKeyData true

def dh2PacketWithHashChain (hashChain : HashChain)
    (sharedSecretHashes : DhPacketSharedSecretHashes) (agreer : KeyAgreementParticipant) :
    Throws DhPacket :=
  dhPacketWithHashChainH0 hashChain.h0 sharedSecretHashes agreer.getPublicKeyData false

def verifyMacWithHashChainH0 (p : DhPacket) (hashChainH0 : NSData) : Throws Unit :=
  p.embeddedIntoHandshakePacket.verifyMacWithPreimage p.hashChainH1 hashChainH0

end DhPacket

structure CommitPacket where
  h2 : NSData
  zid : Zid
  hashSpecId : NSData
  cipherSpecId : NSData
  authSpecId : NSData
  agreementSpecId : NSData
  sasSpecId : NSData
  dhPart2HelloCommitment : NSData
  embeddedIntoHandshakePacket : HandshakePacket
  deriving DecidableEq, Repr

def commitDefaultHashSpecId : NSData := encodedAsAscii "S256"
def commitDefaultCipherSpecId : NSData := encodedAsAscii "AES1"
def commitDefaultAuthSpecId : NSData := encodedAsAscii "HS80"
def commitDefaultSasSpecId : NSData := encodedAsAscii "B256"

def hashSpecLength : ℕ := 4
def cipherSpecLength : ℕ := 4
def authSpecLength : ℕ := 4
def agreeSpecLength : ℕ := 4
def sasSpecLength : ℕ := 4
def commitLength : ℕ := 32
def hashSpecOffset : ℕ := hashChainItemLength + zidLength
def cipherSpecOffset : ℕ := hashSpecOffset + hashSpecLength
def authSpecOffset : ℕ := cipherSpecOffset + cipherSpecLength
def agreeSpecOffset : ℕ := authSpecOffset + authSpecLength
def sasSpecOffset : ℕ := agreeSpecOffset + agreeSpecLength
def commitOffset : ℕ := sasSpecOffset + sasSpecLength

namespace CommitPacket

def commitPacketParsedFromHandshakePacket (handshakePacket : HandshakePacket) :
    Throws CommitPacket := do
  checkOperation (handshakePacket.typeId = handshakeTypeCommit)
  let payload := handshakePacket.payload
  checkOperation (payload.length = commitOffset + commitLength + handshakeTruncatedHmacLength)
  let h2 ← payload.subdataWithRange 0 hashChainItemLength
  let zid ← Zid.zidWithData (← payload.subdataWithRange hashChainItemLength zidLength)
  let hashSpecId ← payload.subdataWithRange hashSpecOffset hashSpecLength
  let cipherSpecId ← payload.subdataWithRange cipherSpecOffset cipherSpecLength
  let authSpecId ← payload.subdataWithRange authSpecOffset authSpecLength
  let agreementSpecId ← payload.subdataWithRange agreeSpecOffset agreeSpecLength
  let sasSpecId ← payload.subdataWithRange sasSpecOffset sasSpecLength
  let dhPart2HelloCommitment ← payload.subdataWithRange commitOffset commitLength
  return { h2, zid, hashSpecId, cipherSpecId, authSpecId, agreementSpecId, sasSpecId,
           dhPart2HelloCommitment, embeddedIntoHandshakePacket := handshakePacket }

variable [CryptoTools]

/-- A new packet with the fields of `p`, embedded anew. -/
def commitPacketWithHashChainH2 (p : CommitPacket) (hmacKey : NSData) : Throws CommitPacket := do
  owsRequire (p.h2.length = hashChainItemLength)
  owsRequire (p.hashSpecId.length = hashSpecLength)
  owsRequire (p.cipherSpecId.length = cipherSpecLength)
  owsRequire (p.authSpecId.length = authSpecLength)
  owsRequire (p.agreementSpecId.length = agreeSpecLength)
  owsRequire (p.sasSpecId.length = sasSpecLength)
  -- embedInHandshakePacketAuthenticatedWith, which checks the same lengths again
  let payload := p.h2 ++ p.zid.getData ++ p.hashSpecId ++ p.cipherSpecId ++ p.authSpecId ++
    p.agreementSpecId ++ p.sasSpecId ++ p.dhPart2HelloCommitment
  let embedding ← (← HandshakePacket.handshakePacketWithTypeId handshakeTypeCommit payload)
    |>.withHmacAppended hmacKey
  return { p with embeddedIntoHandshakePacket := embedding }

/-- What the initiator commits to. -/
def commitmentToHello (hello : HelloPacket) (dhPart2 : DhPacket) : NSData :=
  NSData.hashWithSha256 (dhPart2.embeddedIntoHandshakePacket.dataUsedForAuthentication ++
    hello.embeddedIntoHandshakePacket.dataUsedForAuthentication)

def commitPacketWithDefaultSpecs (keyAgreementProtocol : KeyAgreementProtocol)
    (hashChain : HashChain) (zid : Zid) (hello : HelloPacket) (dhPart2 : DhPacket) :
    Throws CommitPacket :=
  commitPacketWithHashChainH2
    { h2 := hashChain.h2
      zid
      hashSpecId := commitDefaultHashSpecId
      cipherSpecId := commitDefaultCipherSpecId
      authSpecId := commitDefaultAuthSpecId
      agreementSpecId := keyAgreementProtocol.getId
      sasSpecId := commitDefaultSasSpecId
      dhPart2HelloCommitment := commitmentToHello hello dhPart2
      embeddedIntoHandshakePacket := ⟨[], []⟩ }
    hashChain.h1

def verifyCommitmentAgainstHello (p : CommitPacket) (hello : HelloPacket) (dhPart2 : DhPacket) :
    Throws Unit :=
  checkOperation (p.dhPart2HelloCommitment.isEqualToDataTimingSafe
    (commitmentToHello hello dhPart2) = true)

theorem verifyCommitmentAgainstHello_eq_ok {p : CommitPacket} {hello : HelloPacket}
    {dhPart2 : DhPacket} {u : Unit} (h : p.verifyCommitmentAgainstHello hello dhPart2 = .ok u) :
    p.dhPart2HelloCommitment = commitmentToHello hello dhPart2 := by
  rwa [verifyCommitmentAgainstHello, checkOperation_eq_ok, NSData.isEqualToDataTimingSafe_iff] at h

def verifyMacWithHashChainH1 (p : CommitPacket) (hashChainH1 : NSData) : Throws Unit :=
  p.embeddedIntoHandshakePacket.verifyMacWithPreimage p.h2 hashChainH1

end CommitPacket
end SignalIOS.Zrtp
