import SignalIOS.Util.CryptoTools

/-! Packets of the ZRTP handshake, of whatever type, and their message authentication codes. -/
namespace SignalIOS.Zrtp

structure HandshakePacket where
  typeId : NSData
  payload : NSData
  deriving DecidableEq, Repr

def handshakeTypeHello : NSData := encodedAsAscii "Hello   "
def handshakeTypeHelloAck : NSData := encodedAsAscii "HelloAck"
def handshakeTypeCommit : NSData := encodedAsAscii "Commit  "
def handshakeTypeDh1 : NSData := encodedAsAscii "DHPart1 "
def handshakeTypeDh2 : NSData := encodedAsAscii "DHPart2 "
def handshakeTypeConfirm1 : NSData := encodedAsAscii "Confirm1"
def handshakeTypeConfirm2 : NSData := encodedAsAscii "Confirm2"
def handshakeTypeConfirmAck : NSData := encodedAsAscii "Conf2Ack"

def handshakeTruncatedHmacLength : ℕ := 8
def handshakeTypeIdLength : ℕ := 8
def handshakeCrcLength : ℕ := 4
def headerFooterLengthWithoutHmac : ℕ := handshakeTypeIdLength + handshakeCrcLength
def headerFooterLengthWithHmac : ℕ := headerFooterLengthWithoutHmac + handshakeTruncatedHmacLength

/-- `[@"PZ".encodedAsAscii bigEndianUInt16At:0]`. -/
def handshakePacketExtensionIdentifier : UInt16 := 0x505A

namespace HandshakePacket

def handshakePacketWithTypeId (typeId payload : NSData) : Throws HandshakePacket := do
  owsRequire (typeId.length = handshakeTypeIdLength)
  return ⟨typeId, payload⟩

/-- The extension header of the RTP packet, for a given length of what surrounds the payload, and
the data in it up to the CRC. -/
def extensionHeaderAndPayload (p : HandshakePacket) (headerFooterLength : ℕ) : NSData :=
  dataWithBigEndianBytesOfUInt16 handshakePacketExtensionIdentifier ++
    dataWithBigEndianBytesOfUInt16 (UInt16.ofNat (p.payload.length + headerFooterLength)) ++
    p.typeId ++ p.payload

def rtpExtensionHeaderAndPayloadExceptCrc (p : HandshakePacket) : NSData :=
  p.extensionHeaderAndPayload headerFooterLengthWithoutHmac

/-- The HMAC is counted in the length although it is not appended yet. -/
def rtpExtensionPayloadUsedForHmacBeforeHmacAppended (p : HandshakePacket) : NSData :=
  p.extensionHeaderAndPayload headerFooterLengthWithHmac

def dataUsedForAuthentication (p : HandshakePacket) : NSData :=
  p.rtpExtensionHeaderAndPayloadExceptCrc

section
variable [CryptoTools]

def withHmacAppended (p : HandshakePacket) (macKey : NSData) : Throws HandshakePacket := do
  let digest ← p.rtpExtensionPayloadUsedForHmacBeforeHmacAppended.hmacWithSha256WithKey macKey
    |>.take handshakeTruncatedHmacLength
  handshakePacketWithTypeId p.typeId (p.payload ++ digest)

def withHmacVerifiedAndRemoved (p : HandshakePacket) (macKey : NSData) :
    Throws HandshakePacket := do
  let authenticatedData := p.rtpExtensionHeaderAndPayloadExceptCrc
  let expectedHmac ← (← authenticatedData.skipLast handshakeTruncatedHmacLength)
    |>.hmacWithSha256WithKey macKey |>.take handshakeTruncatedHmacLength
  let includedHmac ← authenticatedData.takeLast handshakeTruncatedHmacLength
  checkOperation (expectedHmac.isEqualToDataTimingSafe includedHmac = true)
  handshakePacketWithTypeId p.typeId (← p.payload.skipLast handshakeTruncatedHmacLength)

/-- The packet ends with the truncated HMAC, under `macKey`, of what it has before that. -/
def HmacVerifies (p : HandshakePacket) (macKey : NSData) : Prop :=
  ∃ authenticated hmac : NSData, p.dataUsedForAuthentication = authenticated ++ hmac ∧
    hmac.length = handshakeTruncatedHmacLength ∧
    hmac = List.take handshakeTruncatedHmacLength (authenticated.hmacWithSha256WithKey macKey)

theorem hmacVerifies_of_withHmacVerifiedAndRemoved {p q : HandshakePacket} {macKey : NSData}
    (h : p.withHmacVerifiedAndRemoved macKey = .ok q) : p.HmacVerifies macKey := by
  simp only [withHmacVerifiedAndRemoved, Throws.bind_eq_ok, NSData.skipLast_eq_ok,
    NSData.take_eq_ok, NSData.takeLast_eq_ok, checkOperation_eq_ok,
    NSData.isEqualToDataTimingSafe_iff] at h
  obtain ⟨_, ⟨hlength, rfl⟩, _, ⟨-, rfl⟩, _, ⟨-, rfl⟩, -, hequal, -⟩ := h
  refine ⟨_, _, (List.take_append_drop _ _).symm, ?_, hequal.symm⟩
  rw [List.length_drop]
  exact Nat.sub_sub_self hlength

/-- The check of a packet that has the image of `preimage` in a hash chain, and is authenticated
with `preimage` itself. -/
def verifyMacWithPreimage (p : HandshakePacket) (image preimage : NSData)
    (description : Option String := none) : Throws Unit := do
  checkOperation (preimage.hashWithSha256.isEqualToDataTimingSafe image = true) description
  let _ ← p.withHmacVerifiedAndRemoved preimage

/-- The packet, which has `image` in it, is the one whose sender knew `preimage`. -/
structure VerifiedBy (p : HandshakePacket) (image preimage : NSData) : Prop where
  hash_eq : preimage.hashWithSha256 = image
  hmacVerifies : p.HmacVerifies preimage

theorem verifiedBy_of_verifyMacWithPreimage {p : HandshakePacket} {image preimage : NSData}
    {description : Option String} {u : Unit}
    (h : p.verifyMacWithPreimage image preimage description = .ok u) :
    p.VerifiedBy image preimage := by
  simp only [verifyMacWithPreimage, Throws.bind_eq_ok, checkOperation_eq_ok,
    NSData.isEqualToDataTimingSafe_iff] at h
  obtain ⟨-, hpreimage, _, hverified, -⟩ := h
  exact ⟨hpreimage, hmacVerifies_of_withHmacVerifiedAndRemoved hverified⟩

end

end HandshakePacket
end SignalIOS.Zrtp
