import SignalIOS.Util.CryptoTools

/-! RTP packets and their serialization. -/
namespace SignalIOS.Rtp

structure RtpPacket where
  version : UInt8
  padding : UInt8
  hasExtensionHeader : Bool
  contributingSourceIdentifiers : List UInt32
  isMarkerBitSet : Bool
  payloadType : UInt8
  sequenceNumber : UInt16
  timeStamp : UInt32
  synchronizationSourceIdentifier : UInt32
  extensionHeaderIdentifier : UInt16
  extensionHeaderData : Option NSData
  payload : NSData
  wasAdjustedDueToInteropIssues : Bool
  /-- The bytes the packet was parsed from, or has been serialized to. -/
  rawPacketData : Option NSData
  deriving DecidableEq, Repr

def hasExtensionHeaderBitIndex : UInt8 := 4
def hasPaddingBitIndex : UInt8 := 5
def versionIndex : UInt8 := 6
def markerBitIndex : UInt8 := 7
def maxExtensionHeaderLength : ℕ := 0x10000 - 0x1
def packetVersion : UInt8 := 2

namespace RtpPacket

/-- The factories of packets, with and without extension header. -/
def rtpPacketWithVersion (p : RtpPacket) : Throws RtpPacket := do
  owsRequire (p.version &&& 0xFC = 0)
  owsRequire (p.payloadType &&& 0x80 = 0)
  owsRequire (p.contributingSourceIdentifiers.length < 0x10)
  let p := { p with wasAdjustedDueToInteropIssues := false, rawPacketData := none }
  if p.hasExtensionHeader then
    let extensionData ← owsRequireNotNil p.extensionHeaderData
    owsRequire (extensionData.length < 0x10000)
    return p
  else
    return { p with extensionHeaderIdentifier := 0, extensionHeaderData := none }

def rtpPacketWithDefaultsAndSequenceNumber (sequenceNumber : UInt16) (payload : NSData) :
    Throws RtpPacket :=
  rtpPacketWithVersion
    { version := packetVersion
      padding := 0
      hasExtensionHeader := false
      contributingSourceIdentifiers := []
      isMarkerBitSet := false
      payloadType := 0
      sequenceNumber
      timeStamp := 0
      synchronizationSourceIdentifier := 0
      extensionHeaderIdentifier := 0
      extensionHeaderData := none
      payload
      wasAdjustedDueToInteropIssues := false
      rawPacketData := none }

def withPayload (p : RtpPacket) (newPayload : NSData) : Throws RtpPacket :=
  rtpPacketWithVersion { p with payload := newPayload }

def generateFlags (p : RtpPacket) : Throws NSData := do
  requireState (p.version &&& 0xFC = 0)
  requireState (p.payloadType &&& 0x80 = 0)
  requireState (p.contributingSourceIdentifiers.length < 0x10)
  let versionMask := p.version <<< versionIndex
  let paddingBit : UInt8 := if p.padding > 0 then 1 <<< hasPaddingBitIndex else 0
  let extensionBit : UInt8 := if p.hasExtensionHeader then 1 <<< hasExtensionHeaderBitIndex else 0
  let ccsrcCount := UInt8.ofNat p.contributingSourceIdentifiers.length
  let markerMask : UInt8 := if p.isMarkerBitSet then 1 <<< markerBitIndex else 0
  return [versionMask ||| paddingBit ||| extensionBit ||| ccsrcCount, markerMask ||| p.payloadType]

def generateCcrcData (p : RtpPacket) : NSData :=
  (p.contributingSourceIdentifiers.map dataWithBigEndianBytesOfUInt32).flatten

def generateExtensionHeaderData (p : RtpPacket) : NSData :=
  if p.hasExtensionHeader then
    let extensionHeaderData := p.extensionHeaderData.getD []
    dataWithBigEndianBytesOfUInt16 p.extensionHeaderIdentifier ++
      dataWithBigEndianBytesOfUInt16 (UInt16.ofNat extensionHeaderData.length) ++
      extensionHeaderData
  else []

def generatePaddingData (p : RtpPacket) : NSData :=
  (List.replicate p.padding.toNat 0).set (p.padding.toNat - 1) p.padding

def generateSerializedPacketData (p : RtpPacket) (environment : Environment)
    (interopOptions : List TestingOrLegacyOption) : Throws NSData := do
  requireState (p.hasExtensionHeader = p.extensionHeaderData.isSome)
  requireState (∀ data ∈ p.extensionHeaderData, data.length ≤ maxExtensionHeaderLength)
  -- legacy compatibility with android redphone
  let option : TestingOrLegacyOption :=
    .legacyRtpPaddingBitImpliesExtensionBitAndTwelveExtraZeroBytesInHeader
  let shouldBeEmpty : NSData :=
    if environment.hasEnabledTestingOrLegacyOption option && interopOptions.contains option &&
      p.hasExtensionHeader then List.replicate 12 0 else []
  return (← p.generateFlags) ++ dataWithBigEndianBytesOfUInt16 p.sequenceNumber ++
    dataWithBigEndianBytesOfUInt32 p.timeStamp ++
    dataWithBigEndianBytesOfUInt32 p.synchronizationSourceIdentifier ++ p.generateCcrcData ++
    shouldBeEmpty ++ p.generateExtensionHeaderData ++ p.payload ++ p.generatePaddingData

def rawPacketDataUsingInteropOptions (p : RtpPacket) (environment : Environment)
    (interopOptions : List TestingOrLegacyOption) : Throws NSData :=
  match p.rawPacketData with
  | none => p.generateSerializedPacketData environment interopOptions
  | some rawPacketData => .ok rawPacketData

end RtpPacket
end SignalIOS.Rtp
