import SignalIOS.Zrtp.DhPacket

/-! The master secret, and the Confirm packets, which are encrypted and authenticated under it. -/
namespace SignalIOS.Zrtp

structure MasterSecret where
  totalHash : NSData
  sharedSecret : NSData
  initiatorZid : Zid
  responderZid : Zid
  initiatorSrtpKey : NSData
  responderSrtpKey : NSData
  initiatorSrtpSalt : NSData
  responderSrtpSalt : NSData
  initiatorMacKey : NSData
  responderMacKey : NSData
  initiatorZrtpKey : NSData
  responderZrtpKey : NSData
  shortAuthenticationStringData : NSData
  deriving DecidableEq, Repr

def srtpKeyLength : ℕ := 16
def srtpSaltLength : ℕ := 14
def macKeyLength : ℕ := 20
def zrtpKeyLength : ℕ := 16
def sasLength : ℕ := 4

namespace MasterSecret
variable [CryptoTools]

def calculateTotalHash (responderHello : HelloPacket) (commit : CommitPacket)
    (dhPart1 dhPart2 : DhPacket) : NSData :=
  NSData.hashWithSha256 (responderHello.embeddedIntoHandshakePacket.dataUsedForAuthentication ++
    commit.embeddedIntoHandshakePacket.dataUsedForAuthentication ++
    dhPart1.embeddedIntoHandshakePacket.dataUsedForAuthentication ++
    dhPart2.embeddedIntoHandshakePacket.dataUsedForAuthentication)

def calculateSharedSecret (dhResult totalHash : NSData) (initiatorZid responderZid : Zid) :
    NSData :=
  let counter := dataWithBigEndianBytesOfUInt32 1
  let s1Length := dataWithBigEndianBytesOfUInt32 0
  let s2Length := dataWithBigEndianBytesOfUInt32 0
  let s3Length := dataWithBigEndianBytesOfUInt32 0
  NSData.hashWithSha256 (counter ++ dhResult ++ encodedAsAscii "ZRTP-HMAC-KDF" ++
    initiatorZid.getData ++ responderZid.getData ++ totalHash ++ s1Length ++ s2Length ++ s3Length)

def deriveKeyWithLabel (sharedSecret totalHash : NSData) (initiatorZid responderZid : Zid)
    (label : String) (truncatedLength : ℕ) : Throws NSData :=
  let counter := dataWithBigEndianBytesOfUInt32 1
  let input := counter ++ encodedAsAscii label ++ [0] ++ initiatorZid.getData ++
    responderZid.getData ++ totalHash ++
    dataWithBigEndianBytesOfUInt32 (UInt32.ofNat truncatedLength)
  (NSData.hmacWithSha256WithKey input sharedSecret).take truncatedLength

def masterSecretFromSharedSecret (sharedSecret totalHash : NSData)
    (initiatorZid responderZid : Zid) : Throws MasterSecret := do
  let deriveKey := deriveKeyWithLabel sharedSecret totalHash initiatorZid responderZid
  return {
    totalHash, sharedSecret, initiatorZid, responderZid
    initiatorSrtpKey := ← deriveKey "Initiator SRTP master key" srtpKeyLength
    responderSrtpKey := ← deriveKey "Responder SRTP master key" srtpKeyLength
    initiatorSrtpSalt := ← deriveKey "Initiator SRTP master salt" srtpSaltLength
    responderSrtpSalt := ← deriveKey "Responder SRTP master salt" srtpSaltLength
    initiatorMacKey := ← deriveKey "Initiator HMAC key" macKeyLength
    responderMacKey := ← deriveKey "Responder HMAC key" macKeyLength
    initiatorZrtpKey := ← deriveKey "Initiator ZRTP key" zrtpKeyLength
    responderZrtpKey := ← deriveKey "Responder ZRTP key" zrtpKeyLength
    shortAuthenticationStringData := ← deriveKey "SAS" sasLength }

def masterSecretFromDhResult (dhResult : NSData) (initiatorHello responderHello : HelloPacket)
    (commit : CommitPacket) (dhPart1 dhPart2 : DhPacket) : Throws MasterSecret :=
  let totalHash := calculateTotalHash responderHello commit dhPart1 dhPart2
  let sharedSecret := calculateSharedSecret dhResult totalHash initiatorHello.zid responderHello.zid
  masterSecretFromSharedSecret sharedSecret totalHash initiatorHello.zid responderHello.zid

end MasterSecret

structure ConfirmPacket where
  hashChainH0 : NSData
  unusedAndSignatureLengthAndFlags : UInt32
  cacheExperationInterval : UInt32
  iv : NSData
  isPart1 : Bool
  /-- Only of a packet that has been parsed. -/
  confirmMac : Option NSData
  embeddedIntoHandshakePacket : HandshakePacket
  deriving DecidableEq, Repr

def truncatedHmacLength : ℕ := 8
def confirmIvLength : ℕ := 16
def wordLength : ℕ := 4

namespace ConfirmPacket

def confirmTypeId (isPart1 : Bool) : NSData :=
  if isPart1 then handshakeTypeConfirm1 else handshakeTypeConfirm2

variable [CryptoTools]

def getDecryptedDataFromPayload (payload macKey cipherKey : NSData) : Throws NSData := do
  let iv ← payload.subdataVolatileWithRange truncatedHmacLength confirmIvLength
  let encryptedData ← payload.skip (truncatedHmacLength + confirmIvLength)
  let includedHmac ← payload.take truncatedHmacLength
  let expectedHmac ← (encryptedData.hmacWithSha256WithKey macKey).take truncatedHmacLength
  checkOperation (includedHmac.isEqualToDataTimingSafe expectedHmac = true)
  encryptedData.decryptWithAesInCipherFeedbackMode cipherKey iv

def confirmPacketParsedFromHandshakePacket (handshakePacket : HandshakePacket)
    (macKey cipherKey : NSData) (isPart1 : Bool) : Throws ConfirmPacket := do
  checkOperation (handshakePacket.typeId = confirmTypeId isPart1)
  let payload := handshakePacket.payload
  checkOperation (payload.length =
    truncatedHmacLength + confirmIvLength + hashChainItemLength + wordLength + wordLength)
  let decryptedData ← getDecryptedDataFromPayload payload macKey cipherKey
  return {
    hashChainH0 := ← decryptedData.take hashChainItemLength
    unusedAndSignatureLengthAndFlags := ← decryptedData.bigEndianUInt32At hashChainItemLength
    cacheExperationInterval := ←
      decryptedData.bigEndianUInt32At (hashChainItemLength + wordLength)
    confirmMac := some (← payload.take truncatedHmacLength)
    iv := ← payload.subdataVolatileWithRange truncatedHmacLength confirmIvLength
    isPart1
    embeddedIntoHandshakePacket := handshakePacket }

def confirmPacketWithHashChainH0 (hashChainH0 : NSData)
    (unusedAndSignatureLengthAndFlags cacheExperationInterval : UInt32)
    (macKey cipherKey iv : NSData) (isPart1 : Bool) : Throws ConfirmPacket := do
  owsRequire (iv.length = confirmIvLength)
  owsRequire (hashChainH0.length = hashChainItemLength)
  -- generateEmbedding
  let sensitiveData := hashChainH0 ++
    dataWithBigEndianBytesOfUInt32 unusedAndSignatureLengthAndFlags ++
    dataWithBigEndianBytesOfUInt32 cacheExperationInterval
  let encrytedSensitiveData ←
    NSData.encryptWithAesInCipherFeedbackMode sensitiveData cipherKey iv
  let hmacForSensitiveData ←
    (encrytedSensitiveData.hmacWithSha256WithKey macKey).take truncatedHmacLength
  let embedding ← HandshakePacket.handshakePacketWithTypeId (confirmTypeId isPart1)
    (hmacForSensitiveData ++ iv ++ encrytedSensitiveData)
  return { hashChainH0, unusedAndSignatureLengthAndFlags, cacheExperationInterval, iv, isPart1,
           confirmMac := none, embeddedIntoHandshakePacket := embedding }

def confirm1PacketWithHashChain (hashChain : HashChain) (macKey cipherKey iv : NSData) :
    Throws ConfirmPacket :=
  confirmPacketWithHashChainH0 hashChain.h0 0 0xFFFFFFFF macKey cipherKey iv true

def confirm2PacketWithHashChain (hashChain : HashChain) (macKey cipherKey iv : NSData) :
    Throws ConfirmPacket :=
  confirmPacketWithHashChainH0 hashChain.h0 0 0xFFFFFFFF macKey cipherKey iv false

end ConfirmPacket

namespace HandshakePacket

def parsedAsHello (p : HandshakePacket) : Throws HelloPacket :=
  HelloPacket.helloPacketParsedFromHandshakePacket p

def parsedAsHelloAck (p : HandshakePacket) : Throws AckPacket :=
  HelloAckPacket.helloAckPacketParsedFromHandshakePacket p

def parsedAsCommitPacket (p : HandshakePacket) : Throws CommitPacket :=
  CommitPacket.commitPacketParsedFromHandshakePacket p

def parsedAsDh1 (p : HandshakePacket) : Throws DhPacket :=
  DhPacket.dhPacketFromHandshakePacket p true

def parsedAsDh2 (p : HandshakePacket) : Throws DhPacket :=
  DhPacket.dhPacketFromHandshakePacket p false

def parsedAsConfAck (p : HandshakePacket) : Throws AckPacket :=
  ConfirmAckPacket.confirmAckPacketParsedFromHandshakePacket p

variable [CryptoTools]

def parsedAsConfirm1Authenticated (p : HandshakePacket) (macKey cipherKey : NSData) :
    Throws ConfirmPacket :=
  ConfirmPacket.confirmPacketParsedFromHandshakePacket p macKey cipherKey true

def parsedAsConfirm2Authenticated (p : HandshakePacket) (macKey cipherKey : NSData) :
    Throws ConfirmPacket :=
  ConfirmPacket.confirmPacketParsedFromHandshakePacket p macKey cipherKey false

end HandshakePacket
end SignalIOS.Zrtp
