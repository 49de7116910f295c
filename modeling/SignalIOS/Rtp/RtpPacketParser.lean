import SignalIOS.Rtp.RtpPacket

/-! Reading RTP packets from the bytes of a datagram. -/
namespace SignalIOS.Rtp

def minimumRtpHeaderLength : ℕ := 12
def sequenceNumberOffset : ℕ := 2
def timeStampOffset : ℕ := 4
def synchronizationSourceIdentifierOffset : ℕ := 8
def contributingSourceIdLength : ℕ := 4
def extensionHeaderIdentifierLength : ℕ := 2
def extensionHeaderLengthLength : ℕ := 2
def supportedRtpVersion : UInt8 := 2
def rtpVersionForZrtp : UInt8 := 0
def payloadTypeMask : UInt8 := 0x7F

/-- The number of values of `NSUInteger`. -/
def nsUIntegerRange : ℕ := 0x10000000000000000

/-- The difference of two `NSUInteger`, which wraps around below zero. -/
def subtractNSUInteger (a b : ℕ) : ℕ := if b ≤ a then a - b else nsUIntegerRange + a - b

theorem subtractNSUInteger_of_le {a b : ℕ} (h : b ≤ a) : subtractNSUInteger a b = a - b := if_pos h

def hasBit (byte index : UInt8) : Bool := (byte >>> index) &&& 1 != 0

def lowUInt4OfUint8 (value : UInt8) : UInt8 := value &&& 0xF

/-- The option of the packets of the android version. -/
abbrev legacyRtpOption : TestingOrLegacyOption :=
  .legacyRtpPaddingBitImpliesExtensionBitAndTwelveExtraZeroBytesInHeader

namespace RtpPacket

def new : RtpPacket where
  version := 0
  padding := 0
  hasExtensionHeader := false
  contributingSourceIdentifiers := []
  isMarkerBitSet := false
  payloadType := 0
  sequenceNumber := 0
  timeStamp := 0
  synchronizationSourceIdentifier := 0
  extensionHeaderIdentifier := 0
  extensionHeaderData := none
  payload := []
  wasAdjustedDueToInteropIssues := false
  rawPacketData := none

def getSequenceNumberFromPacketData (packetData : NSData) : Throws UInt16 :=
  packetData.bigEndianUInt16At sequenceNumberOffset

def getTimeStampFromPacketData (packetData : NSData) : Throws UInt32 :=
  packetData.bigEndianUInt32At timeStampOffset

def getSynchronizationSourceIdentifierFromPacketData (packetData : NSData) : Throws UInt32 :=
  packetData.bigEndianUInt32At synchronizationSourceIdentifierOffset

/-- The loop over the contributing sources: what it collects, and the offset behind it. -/
def readContributingSources (packetData : NSData) : ℕ → ℕ → Throws (List UInt32 × ℕ)
  | 0, offset => .ok ([], offset)
  | count + 1, offset => do
    let ccsrc ← packetData.bigEndianUInt32At offset
    let (contributingSources, offset) ←
      readContributingSources packetData count (offset + contributingSourceIdLength)
    return (ccsrc :: contributingSources, offset)

def readContributingSourcesFromPacketData (p : RtpPacket) (packetData : NSData)
    (offset minSize : ℕ) : Throws (RtpPacket × ℕ × ℕ) := do
  let contributingSourceCount := (lowUInt4OfUint8 (← packetData.uint8At 0)).toNat
  let minSize := minSize + contributingSourceCount * contributingSourceIdLength
  checkOperation (packetData.length ≥ minSize) "Rtp packet ends before header finished."
  let (contributingSources, offset) ←
    readContributingSources packetData contributingSourceCount offset
  return ({ p with contributingSourceIdentifiers := contributingSources }, offset, minSize)

def readExtensionHeaderFromPacketData (p : RtpPacket) (environment : Environment)
    (packetData : NSData) (offset minSize : ℕ) : Throws (RtpPacket × ℕ × ℕ) := do
  let flags ← packetData.uint8At 0
  let p := { p with hasExtensionHeader := hasBit flags hasExtensionHeaderBitIndex }
  -- legacy compatibility with android redphone
  let adjusted := environment.hasEnabledTestingOrLegacyOption legacyRtpOption &&
    hasBit flags hasPaddingBitIndex
  let p := if adjusted then
      { p with wasAdjustedDueToInteropIssues := true, hasExtensionHeader := true }
    else p
  let offset := if adjusted then offset + 12 else offset
  if p.hasExtensionHeader then
    let minSize := minSize + (extensionHeaderIdentifierLength + extensionHeaderLengthLength)
    checkOperation (packetData.length ≥ minSize)
      "Rtp packet ends before header of extension header finished."
    let extensionHeaderIdentifier ← packetData.bigEndianUInt16At offset
    let offset := offset + extensionHeaderIdentifierLength
    let extensionLength := (← packetData.bigEndianUInt16At offset).toNat
    let offset := offset + extensionHeaderLengthLength
    let minSize := minSize + extensionLength
    checkOperation (packetData.length ≥ minSize)
      "Rtp packet ends before payload of extension header finished."
    let extensionHeaderData ← packetData.subdataWithRange offset extensionLength
    return ({ p with extensionHeaderIdentifier, extensionHeaderData },
      offset + extensionLength, minSize)
  else
    return (p, offset, minSize)

def readPaddingFromPacketData (p : RtpPacket) (environment : Environment) (packetData : NSData)
    (minSize : ℕ) : Throws RtpPacket := do
  let hasPadding := hasBit (← packetData.uint8At 0) hasPaddingBitIndex
  if hasPadding then
    -- legacy compatibility with android redphone
    if environment.hasEnabledTestingOrLegacyOption legacyRtpOption then
      return { p with wasAdjustedDueToInteropIssues := true }
    else
      let padding ← packetData.uint8At (subtractNSUInteger packetData.length 1)
      checkOperation (padding > 0)
        "Padding length must be at least 1 because it includes the suffix byte specifying the length."
      checkOperation (packetData.length ≥ minSize + padding.toNat)
        "Rtp packet overlaps header and padding."
      return { p with padding }
  else
    return p

def rtpPacketParsedFromPacketData (environment : Environment) (packetData : NSData) :
    Throws RtpPacket := do
  checkOperation (packetData.length ≥ minimumRtpHeaderLength)
    "Rtp packet ends before header finished."
  let p := { new with
    rawPacketData := some packetData
    version := (← packetData.uint8At 0) >>> versionIndex }
  checkOperation (p.version = supportedRtpVersion ∨ p.version = rtpVersionForZrtp)
  let p := { p with
    isMarkerBitSet := hasBit (← packetData.uint8At 1) markerBitIndex
    payloadType := (← packetData.uint8At 1) &&& payloadTypeMask }
  let (p, offset, minSize) ← p.readContributingSourcesFromPacketData packetData
    minimumRtpHeaderLength minimumRtpHeaderLength
  let (p, offset, minSize) ←
    p.readExtensionHeaderFromPacketData environment packetData offset minSize
  let p ← p.readPaddingFromPacketData environment packetData minSize
  let payload ← packetData.subdataWithRange offset
    (subtractNSUInteger (subtractNSUInteger packetData.length p.padding.toNat) offset)
  let sequenceNumber ← getSequenceNumberFromPacketData packetData
  let timeStamp ← getTimeStampFromPacketData packetData
  let synchronizationSourceIdentifier ←
    getSynchronizationSourceIdentifierFromPacketData packetData
  return { p with payload, sequenceNumber, timeStamp, synchronizationSourceIdentifier }

/-- What reading the extension header does, if it does not raise. Where it has been moved, twelve
bytes are skipped in front of it. -/
theorem readExtensionHeaderFromPacketData_eq_ok {p q : RtpPacket} {environment : Environment}
    {data : NSData} {flags : UInt8} {adjusted : Bool} {offset minSize offset' minSize' : ℕ}
    (hflags : data.uint8At 0 = .ok flags)
    (hadjusted : (environment.hasEnabledTestingOrLegacyOption legacyRtpOption &&
      hasBit flags hasPaddingBitIndex) = adjusted) :
    p.readExtensionHeaderFromPacketData environment data offset minSize =
        .ok (q, offset', minSize') ↔
      if hasBit flags hasExtensionHeaderBitIndex || adjusted then
        let start := offset + if adjusted then 12 else 0
        ∃ identifier length, data.bigEndianUInt16At start = .ok identifier ∧
          data.bigEndianUInt16At (start + 2) = .ok length ∧
          offset' = start + 4 + length.toNat ∧ offset' ≤ data.length ∧
          minSize' = minSize + 4 + length.toNat ∧ minSize' ≤ data.length ∧
          q = { p with
            hasExtensionHeader := true
            wasAdjustedDueToInteropIssues := adjusted || p.wasAdjustedDueToInteropIssues
            extensionHeaderIdentifier := identifier
            extensionHeaderData := some ((data.drop (start + 4)).take length.toNat) }
      else q = { p with hasExtensionHeader := false } ∧ offset' = offset ∧ minSize' = minSize := by
  simp only [readExtensionHeaderFromPacketData, Throws.bind_eq_ok, hflags, Except.ok.injEq,
    exists_eq_left', hadjusted]
  cases adjusted with
  | true =>
    simp only [Bool.or_true, if_true, Throws.bind_eq_ok, checkOperation_eq_ok,
      NSData.subdataWithRange_eq_ok, Throws.pure_eq_ok, Prod.mk.injEq]
    simp only [extensionHeaderIdentifierLength, extensionHeaderLengthLength]
    constructor
    · rintro ⟨-, -, identifier, hidentifier, length, hlength, -, hsize, _, ⟨hrange, rfl⟩, rfl, rfl,
        rfl⟩
      exact ⟨identifier, length, hidentifier, hlength, rfl, hrange, rfl, hsize, rfl⟩
    · rintro ⟨identifier, length, hidentifier, hlength, rfl, hrange, rfl, hsize, rfl⟩
      exact ⟨⟨⟩, by omega, identifier, hidentifier, length, hlength, ⟨⟩, hsize, _, ⟨hrange, rfl⟩,
        rfl, rfl, rfl⟩
  | false =>
    cases hbit : hasBit flags hasExtensionHeaderBitIndex with
    | true =>
      simp only [Bool.or_false, Bool.false_or, Bool.false_eq_true, if_false, if_true,
        Throws.bind_eq_ok, checkOperation_eq_ok, NSData.subdataWithRange_eq_ok,
        Throws.pure_eq_ok, Prod.mk.injEq]
      simp only [extensionHeaderIdentifierLength, extensionHeaderLengthLength, Nat.add_zero]
      constructor
      · rintro ⟨-, -, identifier, hidentifier, length, hlength, -, hsize, _, ⟨hrange, rfl⟩, rfl,
          rfl, rfl⟩
        exact ⟨identifier, length, hidentifier, hlength, rfl, hrange, rfl, hsize, rfl⟩
      · rintro ⟨identifier, length, hidentifier, hlength, rfl, hrange, rfl, hsize, rfl⟩
        exact ⟨⟨⟩, by omega, identifier, hidentifier, length, hlength, ⟨⟩, hsize, _, ⟨hrange, rfl⟩,
          rfl, rfl, rfl⟩
    | false =>
      simp only [Bool.or_false, Bool.false_eq_true, if_false, Throws.pure_eq_ok, Prod.mk.injEq]
      constructor
      · rintro ⟨rfl, rfl, rfl⟩
        exact ⟨rfl, rfl, rfl⟩
      · rintro ⟨rfl, rfl, rfl⟩
        exact ⟨rfl, rfl, rfl⟩

/-- What reading the padding does, if it does not raise. -/
theorem readPaddingFromPacketData_eq_ok {p q : RtpPacket} {environment : Environment}
    {data : NSData} {flags : UInt8} {adjusted : Bool} {minSize : ℕ}
    (hflags : data.uint8At 0 = .ok flags)
    (hadjusted : (environment.hasEnabledTestingOrLegacyOption legacyRtpOption &&
      hasBit flags hasPaddingBitIndex) = adjusted) :
    p.readPaddingFromPacketData environment data minSize = .ok q ↔
      if hasBit flags hasPaddingBitIndex && !adjusted then
        ∃ padding, data.uint8At (data.length - 1) = .ok padding ∧ padding > 0 ∧
          minSize + padding.toNat ≤ data.length ∧ q = { p with padding }
      else q = { p with
        wasAdjustedDueToInteropIssues := adjusted || p.wasAdjustedDueToInteropIssues } := by
  have hlength : 0 < data.length :=
    (List.getElem?_eq_some_iff.mp (NSData.uint8At_eq_ok.mp hflags)).choose
  simp only [readPaddingFromPacketData, Throws.bind_eq_ok, hflags, Except.ok.injEq,
    exists_eq_left']
  cases hbit : hasBit flags hasPaddingBitIndex with
  | false =>
    rw [hbit, Bool.and_false] at hadjusted
    subst hadjusted
    simp only [Bool.false_and, Bool.false_eq_true, if_false, Throws.pure_eq_ok, Bool.false_or]
    exact eq_comm
  | true =>
    rw [hbit, Bool.and_true] at hadjusted
    rw [hadjusted]
    cases adjusted with
    | true =>
      simp only [Bool.not_true, Bool.and_false, Bool.false_eq_true, if_true, if_false,
        Throws.pure_eq_ok, Bool.true_or]
      exact eq_comm
    | false =>
      rw [subtractNSUInteger_of_le hlength]
      simp only [Bool.not_false, Bool.and_true, Bool.false_eq_true, if_true, if_false,
        Throws.bind_eq_ok, checkOperation_eq_ok, Throws.pure_eq_ok]
      constructor
      · rintro ⟨padding, hlast, -, hpositive, -, hsize, rfl⟩
        exact ⟨padding, hlast, hpositive, hsize, rfl⟩
      · rintro ⟨padding, hlast, hpositive, hsize, rfl⟩
        exact ⟨padding, hlast, ⟨⟩, hpositive, ⟨⟩, hsize, rfl⟩

end RtpPacket
end SignalIOS.Rtp
