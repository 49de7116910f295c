import SignalIOS.Zrtp.HandshakePacket

/-! Hash chains, and the Hello and HelloAck packets. -/
namespace SignalIOS.Zrtp

def zidLength : ℕ := 12

structure Zid where
  getData : NSData
  length_eq : getData.length = zidLength
  deriving DecidableEq, Repr

namespace Zid

def zidWithData (zidData : NSData) : Throws Zid :=
  if h : zidData.length = zidLength then .ok ⟨zidData, h⟩ else .error .badArgument

def nullZid : Zid := ⟨List.replicate zidLength 0, List.length_replicate⟩

end Zid

def hashChainItemLength : ℕ := 32

structure HashChain where
  h0 : NSData
  h1 : NSData
  h2 : NSData
  h3 : NSData
  deriving DecidableEq, Repr

def HashChain.hashChainWithSeed [CryptoTools] (seed : NSData) : Throws HashChain := do
  owsRequire (seed.length = hashChainItemLength)
  let h1 := seed.hashWithSha256
  let h2 := h1.hashWithSha256
  let h3 := h2.hashWithSha256
  return ⟨seed, h1, h2, h3⟩

def commitDefaultAgreeSpecId : NSData := encodedAsAscii "DH3k"

structure HelloPacket where
  versionId : NSData
  clientId : NSData
  hashChainH3 : NSData
  zid : Zid
  flags0SMP : UInt8
  flagsUnusedLow4 : UInt8
  flagsUnusedHigh4 : UInt8
  hashIds : List NSData
  cipherIds : List NSData
  authIds : List NSData
  agreeIds : List NSData
  sasIds : List NSData
  embeddedIntoHandshakePacket : HandshakePacket
  deriving DecidableEq, Repr

def maxSpecIds : ℕ := 7
def clientIdLength : ℕ := 16
def versionIdLength : ℕ := 4
def flagsLength : ℕ := 4
def specIdLength : ℕ := 4
def versionIdOffset : ℕ := 0
def clientIdOffset : ℕ := versionIdOffset + versionIdLength
def hashChainH3Offset : ℕ := clientIdLength + clientIdOffset
def zidOffset : ℕ := hashChainH3Offset + hashChainItemLength
def flagsOffset : ℕ := zidOffset + zidLength
def specIdsOffset : ℕ := flagsOffset + flagsLength
def unusedHighAnd0SMPFlagIndex : ℕ := 0
def hashIdAndUnusedLowFlagIndex : ℕ := 1
def authIdAndCipherIdFlagIndex : ℕ := 2
def sasIdAndAgreeIdFlagIndex : ℕ := 3

def uint8FromLowUInt4 (low4UInt4 highUInt4 : UInt8) : Throws UInt8 := do
  owsRequire (low4UInt4 < 0x10)
  owsRequire (highUInt4 < 0x10)
  return low4UInt4 ||| (highUInt4 <<< 4)

namespace HelloPacket

/-- DH3k is not advertised, but has to be among the protocols. -/
def getAgreeIdsFromKeyAgreementProtocols (keyAgreementProtocols : List KeyAgreementProtocol) :
    Throws (List NSData) := do
  owsRequire (keyAgreementProtocols.any fun e => e.getId = commitDefaultAgreeSpecId)
  return (keyAgreementProtocols.map (·.getId)).filter (· ≠ commitDefaultAgreeSpecId)

/-- The number of hash ids goes to the byte that has just been written, not to its own. -/
def generateFlags (p : HelloPacket) : Throws NSData := do
  let flags ← NSData.setUint8At (List.replicate flagsLength 0) unusedHighAnd0SMPFlagIndex
    (← uint8FromLowUInt4 p.flagsUnusedHigh4 p.flags0SMP)
  let flags ← flags.setUint8At unusedHighAnd0SMPFlagIndex
    (← uint8FromLowUInt4 (UInt8.ofNat p.hashIds.length) p.flagsUnusedLow4)
  let flags ← flags.setUint8At authIdAndCipherIdFlagIndex
    (← uint8FromLowUInt4 (UInt8.ofNat p.authIds.length) (UInt8.ofNat p.cipherIds.length))
  flags.setUint8At sasIdAndAgreeIdFlagIndex
    (← uint8FromLowUInt4 (UInt8.ofNat p.sasIds.length) (UInt8.ofNat p.agreeIds.length))

def generatePayload (p : HelloPacket) : Throws NSData := do
  return p.versionId ++ p.clientId ++ p.hashChainH3 ++ p.zid.getData ++ (← p.generateFlags) ++
    (p.hashIds ++ p.cipherIds ++ p.authIds ++ p.agreeIds ++ p.sasIds).flatten

section
variable [CryptoTools]

/-- A new packet with the fields of `p`, embedded anew. -/
def helloPacketWithVersion (p : HelloPacket) (hmacKey : NSData) : Throws HelloPacket := do
  owsRequire (p.flags0SMP &&& 0xF0 = 0)
  owsRequire (p.flagsUnusedLow4 &&& 0xF0 = 0)
  owsRequire (p.flagsUnusedHigh4 &&& 0xF0 = 0)
  owsRequire (p.versionId.length = versionIdLength)
  owsRequire (p.clientId.length = clientIdLength)
  owsRequire (p.hashChainH3.length = hashChainItemLength)
  owsRequire (p.hashIds.length ≤ maxSpecIds)
  owsRequire (p.cipherIds.length ≤ maxSpecIds)
  owsRequire (p.authIds.length ≤ maxSpecIds)
  owsRequire (p.agreeIds.length ≤ maxSpecIds)
  owsRequire (p.sasIds.length ≤ maxSpecIds)
  let unauthenticatedEmbedding ← HandshakePacket.handshakePacketWithTypeId handshakeTypeHello
    (← p.generatePayload)
  return { p with
    embeddedIntoHandshakePacket := ← unauthenticatedEmbedding.withHmacAppended hmacKey }

def helloPacketWithDefaults (environment : Environment) (hashChain : HashChain) (zid : Zid)
    (keyAgreementProtocols : List KeyAgreementProtocol) : Throws HelloPacket := do
  helloPacketWithVersion
    { versionId := environment.zrtpVersionId
      clientId := environment.zrtpClientId
      hashChainH3 := hashChain.h3
      zid
      flags0SMP := 0
      flagsUnusedLow4 := 0
      flagsUnusedHigh4 := 0
      hashIds := []
      cipherIds := []
      authIds := []
      agreeIds := ← getAgreeIdsFromKeyAgreementProtocols keyAgreementProtocols
      sasIds := []
      embeddedIntoHandshakePacket := ⟨[], []⟩ }
    hashChain.h2

def verifyMacWithHashChainH2 (p : HelloPacket) (hashChainH2 : NSData) : Throws Unit :=
  p.embeddedIntoHandshakePacket.verifyMacWithPreimage p.hashChainH3 hashChainH2 "Invalid preimage"

end

/-- The next `count` ids from `offset` on. -/
def getSpecIdsAt (payload : NSData) (offset : ℕ) : ℕ → Throws (List NSData)
  | 0 => return []
  | count + 1 => do
    let specId ← payload.subdataWithRange offset specIdLength
    return specId :: (← getSpecIdsAt payload (offset + specIdLength) count)

/-- The lists of ids for the counts, one after the other from `offset` on. -/
def getSpecIdListsAt (payload : NSData) (offset : ℕ) : List ℕ → Throws (List (List NSData))
  | [] => return []
  | count :: counts => do
    let subResult ← getSpecIdsAt payload offset count
    return subResult :: (← getSpecIdListsAt payload (offset + specIdLength * count) counts)

def sumNSUInteger (counts : List ℕ) : ℕ := counts.foldl (· + ·) 0

def getSpecIdsFromPayload (payload : NSData) (counts : List ℕ) : Throws (List (List NSData)) := do
  checkOperation (payload.length ≥ specIdsOffset + specIdLength * sumNSUInteger counts)
  getSpecIdListsAt payload specIdsOffset counts

def helloPacketParsedFromHandshakePacket (handshakePacket : HandshakePacket) :
    Throws HelloPacket := do
  checkOperation (handshakePacket.typeId = handshakeTypeHello) "Not a hello packet"
  let payload := handshakePacket.payload
  checkOperation (payload.length ≥ specIdsOffset)
  let versionId ← payload.subdataWithRange versionIdOffset versionIdLength
  let clientId ← payload.subdataWithRange clientIdOffset clientIdLength
  let hashChainH3 ← payload.subdataWithRange hashChainH3Offset hashChainItemLength
  let zid ← Zid.zidWithData (← payload.subdataWithRange zidOffset zidLength)
  -- setFlagsAndSpecIdsFromPayload
  let flags ← payload.subdataWithRange flagsOffset flagsLength
  let flags0SMP ← flags.highUint4AtByteOffset unusedHighAnd0SMPFlagIndex
  let flagsUnusedHigh4 ← flags.lowUint4AtByteOffset unusedHighAnd0SMPFlagIndex
  let flagsUnusedLow4 ← flags.highUint4AtByteOffset hashIdAndUnusedLowFlagIndex
  let hashIdsCount ← flags.lowUint4AtByteOffset hashIdAndUnusedLowFlagIndex
  let cipherIdsCount ← flags.highUint4AtByteOffset authIdAndCipherIdFlagIndex
  let authIdsCount ← flags.lowUint4AtByteOffset authIdAndCipherIdFlagIndex
  let agreeIdsCount ← flags.highUint4AtByteOffset sasIdAndAgreeIdFlagIndex
  let sasIdsCount ← flags.lowUint4AtByteOffset sasIdAndAgreeIdFlagIndex
  let specIds ← getSpecIdsFromPayload payload [hashIdsCount.toNat, cipherIdsCount.toNat,
    authIdsCount.toNat, agreeIdsCount.toNat, sasIdsCount.toNat]
  match specIds with
  | [hashIds, cipherIds, authIds, agreeIds, sasIds] =>
    return { versionId, clientId, hashChainH3, zid, flags0SMP, flagsUnusedLow4, flagsUnusedHigh4,
             hashIds, cipherIds, authIds, agreeIds, sasIds,
             embeddedIntoHandshakePacket := handshakePacket }
  | _ => throw .nsRangeException

def agreeIdsIncludingImplied (p : HelloPacket) : List NSData :=
  p.agreeIds ++ [commitDefaultAgreeSpecId]

end HelloPacket

/-- A packet without contents: `HelloAckPacket` and `ConfirmAckPacket`. -/
structure AckPacket where
  embeddedIntoHandshakePacket : HandshakePacket
  deriving DecidableEq, Repr

/-- The packet without contents of the type `typeId`. -/
def AckPacket.parsedFromHandshakePacket (typeId : NSData) (handshakePacket : HandshakePacket) :
    Throws AckPacket := do
  checkOperation (handshakePacket.typeId = typeId)
  checkOperation (handshakePacket.payload.length = 0)
  return ⟨handshakePacket⟩

namespace HelloAckPacket

def helloAckPacket : Throws AckPacket := do
  return ⟨← HandshakePacket.handshakePacketWithTypeId handshakeTypeHelloAck []⟩

def helloAckPacketParsedFromHandshakePacket : HandshakePacket → Throws AckPacket :=
  AckPacket.parsedFromHandshakePacket handshakeTypeHelloAck

end HelloAckPacket

namespace ConfirmAckPacket

def confirmAckPacket : Throws AckPacket := do
  return ⟨← HandshakePacket.handshakePacketWithTypeId handshakeTypeConfirmAck []⟩

def confirmAckPacketParsedFromHandshakePacket : HandshakePacket → Throws AckPacket :=
  AckPacket.parsedFromHandshakePacket handshakeTypeConfirmAck

end ConfirmAckPacket

end SignalIOS.Zrtp
