import SignalIOS.Rtp.RtpPacket
import SignalIOS.Util.Crc32
import SignalIOS.Zrtp.HandshakePacket

/-! The packets of the handshake in the extension headers of RTP packets. -/
namespace SignalIOS.Zrtp
open SignalIOS.Rtp

/-- `[@"ZRTP".encodedAsAscii bigEndianUInt32At:0]`. -/
def handshakePacketTimestampCookie : UInt32 := 0x5A525450

namespace HandshakePacket

/-- The extension header, as long as the messages to a missing one find it: empty. -/
def extensionHeaderDataOf (rtpPacket : RtpPacket) : NSData := rtpPacket.extensionHeaderData.getD []

def getHandshakeTypeIdFromRtp (rtpPacket : RtpPacket) : Throws NSData :=
  (extensionHeaderDataOf rtpPacket).take handshakeTypeIdLength

def getHandshakePayloadFromRtp (rtpPacket : RtpPacket) : Throws NSData := do
  (← (extensionHeaderDataOf rtpPacket).skip handshakeTypeIdLength).skipLast handshakeCrcLength

def getIncludedHandshakeCrcFromRtp (rtpPacket : RtpPacket) : Throws UInt32 := do
  (← (extensionHeaderDataOf rtpPacket).takeLast handshakeCrcLength).bigEndianUInt32At 0

def handshakePacketParsedFromRtpPacket (environment : Environment) (rtpPacket : RtpPacket) :
    Throws HandshakePacket := do
  checkOperation (rtpPacket.timeStamp = handshakePacketTimestampCookie)
  checkOperation (rtpPacket.version = 0)
  checkOperation (rtpPacket.hasExtensionHeader = true)
  checkOperation (rtpPacket.extensionHeaderIdentifier = handshakePacketExtensionIdentifier)
  checkOperation ((extensionHeaderDataOf rtpPacket).length ≥ headerFooterLengthWithoutHmac)
  let typeId ← getHandshakeTypeIdFromRtp rtpPacket
  let payload ← getHandshakePayloadFromRtp rtpPacket
  let includedCrc ← getIncludedHandshakeCrcFromRtp rtpPacket
  let expectedCrc :=
    (← (← rtpPacket.rawPacketDataUsingInteropOptions environment []).skipLast 4).crc32
  checkOperation (includedCrc = expectedCrc)
  return ⟨typeId, payload⟩

def rtpExtensionPayloadExceptCrc (p : HandshakePacket) : NSData := p.typeId ++ p.payload

/-- What the RTP packet of a handshake packet is made of. The version 0, which is invalid,
indicates such a packet. -/
def rtpPacketFields (sequenceNumber : UInt16) (extensionData : NSData) : RtpPacket where
  version := 0
  padding := 0
  hasExtensionHeader := true
  contributingSourceIdentifiers := []
  isMarkerBitSet := false
  payloadType := 0
  sequenceNumber
  timeStamp := handshakePacketTimestampCookie
  synchronizationSourceIdentifier := 0
  extensionHeaderIdentifier := handshakePacketExtensionIdentifier
  extensionHeaderData := some extensionData
  payload := []
  wasAdjustedDueToInteropIssues := false
  rawPacketData := none

def embeddedIntoRtpPacketWithSequenceNumber (p : HandshakePacket) (environment : Environment)
    (sequenceNumber : UInt16) (interopOptions : List TestingOrLegacyOption) :
    Throws RtpPacket := do
  requireState (p.typeId.length = handshakeTypeIdLength)
  let payloadExceptCrc := p.rtpExtensionPayloadExceptCrc
  let packetWithZeroCrc ← RtpPacket.rtpPacketWithVersion
    (rtpPacketFields sequenceNumber (payloadExceptCrc ++ dataWithBigEndianBytesOfUInt32 0))
  let rawPacketData ← packetWithZeroCrc.rawPacketDataUsingInteropOptions environment interopOptions
  let crc := (← rawPacketData.skipLast 4).crc32
  RtpPacket.rtpPacketWithVersion
    (rtpPacketFields sequenceNumber (payloadExceptCrc ++ dataWithBigEndianBytesOfUInt32 crc))

end HandshakePacket
end SignalIOS.Zrtp
