import SignalIOS.Rtp.ParserSafety
import SignalIOS.Rtp.RoundTrip

/-! Which byte strings the parser accepts. -/
namespace SignalIOS.Rtp
open NSData

/-- Whether the padding bit moves the extension header behind twelve bytes, and implies it. -/
def adjustsForInterop (environment : Environment) (flags : UInt8) : Bool :=
  environment.hasEnabledTestingOrLegacyOption legacyRtpOption && hasBit flags hasPaddingBitIndex

/-- The data has the extension header, if any, between the two positions. -/
def ExtensionHeaderEnds (environment : Environment) (data : NSData) (flags : UInt8)
    (headerEnd extensionEnd : ℕ) : Prop :=
  if adjustsForInterop environment flags then
    ∃ extensionLength, data.bigEndianUInt16At (headerEnd + 14) = .ok extensionLength ∧
      extensionEnd = headerEnd + 16 + extensionLength.toNat ∧ extensionEnd ≤ data.length
  else if hasBit flags hasExtensionHeaderBitIndex then
    ∃ extensionLength, data.bigEndianUInt16At (headerEnd + 2) = .ok extensionLength ∧
      extensionEnd = headerEnd + 4 + extensionLength.toNat ∧ extensionEnd ≤ data.length
  else extensionEnd = headerEnd

/-- The padding, if any, ends the data, and starts behind `extensionEnd`. The last byte of it is its
length. -/
def PaddingFits (environment : Environment) (data : NSData) (flags : UInt8) (extensionEnd : ℕ) :
    Prop :=
  hasBit flags hasPaddingBitIndex = true → adjustsForInterop environment flags = false →
    ∃ padding, data.uint8At (data.length - 1) = .ok padding ∧ 0 < padding ∧
      extensionEnd + padding.toNat ≤ data.length

/-- An RTP packet in bytes, or a packet of the handshake. -/
def WellFormed (environment : Environment) (data : NSData) : Prop :=
  minimumRtpHeaderLength ≤ data.length ∧ ∃ flags, data.uint8At 0 = .ok flags ∧
    (flags >>> versionIndex = supportedRtpVersion ∨ flags >>> versionIndex = rtpVersionForZrtp) ∧
    let headerEnd := 12 + 4 * (lowUInt4OfUint8 flags).toNat
    headerEnd ≤ data.length ∧ ∃ extensionEnd,
      ExtensionHeaderEnds environment data flags headerEnd extensionEnd ∧
      PaddingFits environment data flags extensionEnd

namespace RtpPacket

variable {environment : Environment} {data : NSData} {flags : UInt8} {offset : ℕ}

/-- Where the extension header that has been read ends. -/
theorem extensionHeaderEnds_of_read {p q : RtpPacket} {offset' minSize' : ℕ}
    (hflags : data.uint8At 0 = .ok flags)
    (h : p.readExtensionHeaderFromPacketData environment data offset offset =
      .ok (q, offset', minSize')) :
    ExtensionHeaderEnds environment data flags offset offset' := by
  unfold ExtensionHeaderEnds
  rw [readExtensionHeaderFromPacketData_eq_ok hflags rfl] at h
  cases hadjusted : adjustsForInterop environment flags with
  | true =>
    rw [adjustsForInterop] at hadjusted
    rw [hadjusted, Bool.or_true, if_pos rfl] at h
    obtain ⟨identifier, length, -, hlength, rfl, hrange, -⟩ := h
    exact ⟨length, hlength, rfl, hrange⟩
  | false =>
    rw [adjustsForInterop] at hadjusted
    rw [hadjusted, Bool.or_false] at h
    rw [if_neg Bool.false_ne_true]
    split at h
    case isTrue hextension =>
      obtain ⟨identifier, length, -, hlength, rfl, hrange, -⟩ := h
      rw [if_pos hextension]
      exact ⟨length, hlength, rfl, hrange⟩
    case isFalse hextension =>
      rw [if_neg hextension]
      exact h.2.1

/-- An extension header that ends within the data can be read. -/
theorem readExtensionHeader_of_ends (p : RtpPacket) {extensionEnd : ℕ}
    (hflags : data.uint8At 0 = .ok flags)
    (h : ExtensionHeaderEnds environment data flags offset extensionEnd) :
    ∃ q minSize, p.readExtensionHeaderFromPacketData environment data offset offset =
      .ok (q, extensionEnd, minSize) := by
  unfold ExtensionHeaderEnds at h
  cases hadjusted : adjustsForInterop environment flags with
  | true =>
    rw [hadjusted, if_pos rfl] at h
    obtain ⟨length, hlength, rfl, hend⟩ := h
    obtain ⟨identifier, hidentifier⟩ :=
      bigEndianUInt16At_of_le (show offset + 12 + 2 ≤ data.length by omega)
    simp only [readExtensionHeaderFromPacketData_eq_ok hflags hadjusted, Bool.or_true, if_true]
    exact ⟨_, _, identifier, length, hidentifier, hlength, rfl, hend, rfl, by omega, rfl⟩
  | false =>
    rw [hadjusted, if_neg Bool.false_ne_true] at h
    split at h
    case isTrue hextension =>
      obtain ⟨length, hlength, rfl, hend⟩ := h
      obtain ⟨identifier, hidentifier⟩ :=
        bigEndianUInt16At_of_le (show offset + 2 ≤ data.length by omega)
      simp only [readExtensionHeaderFromPacketData_eq_ok hflags hadjusted, Bool.or_false,
        if_pos hextension]
      exact ⟨_, _, identifier, length, hidentifier, hlength, rfl, hend, rfl, hend, rfl⟩
    case isFalse hextension =>
      subst h
      simp only [readExtensionHeaderFromPacketData_eq_ok hflags hadjusted, Bool.or_false,
        if_neg hextension]
      exact ⟨_, _, rfl, trivial, rfl⟩

/-- Padding that fits between the header and the end of the data can be read. -/
theorem readPadding_iff_fits (p : RtpPacket) {minSize : ℕ}
    (hflags : data.uint8At 0 = .ok flags) :
    (∃ q, p.readPaddingFromPacketData environment data minSize = .ok q) ↔
      PaddingFits environment data flags minSize := by
  simp only [readPaddingFromPacketData_eq_ok hflags rfl]
  unfold PaddingFits
  rw [← Bool.not_eq_true', ← and_imp, ← Bool.and_eq_true_iff]
  constructor
  · rintro ⟨q, hq⟩ hread
    rw [adjustsForInterop] at hread
    rw [if_pos hread] at hq
    obtain ⟨padding, hlast, hpositive, hfits, -⟩ := hq
    exact ⟨padding, hlast, hpositive, hfits⟩
  · intro hfits
    split
    case isTrue hread =>
      obtain ⟨padding, hlast, hpositive, hfits⟩ := hfits hread
      exact ⟨_, padding, hlast, hpositive, hfits, rfl⟩
    case isFalse => exact ⟨_, rfl⟩

/-- Where the list of contributing sources that has been read ends. -/
theorem readContributingSources_fits {p q : RtpPacket} {offset' minSize' : ℕ}
    (hflags : data.uint8At 0 = .ok flags)
    (h : p.readContributingSourcesFromPacketData data offset offset = .ok (q, offset', minSize')) :
    let headerEnd := offset + 4 * (lowUInt4OfUint8 flags).toNat
    headerEnd ≤ data.length ∧ offset' = headerEnd ∧ minSize' = headerEnd := by
  have hcases := p.readContributingSourcesFromPacketData_cases offset hflags
  dsimp only at hcases ⊢
  split at hcases
  case isTrue hfits =>
    obtain ⟨_, hq, -⟩ := hcases
    cases h.symm.trans hq
    exact ⟨hfits, rfl, rfl⟩
  case isFalse =>
    obtain ⟨_, herror⟩ := hcases
    cases h.symm.trans herror

/-- The parser accepts what is well formed, and nothing else. -/
theorem parses_iff_wellFormed (environment : Environment) (data : NSData) :
    (∃ p, rtpPacketParsedFromPacketData environment data = .ok p) ↔
      WellFormed environment data := by
  constructor
  · rintro ⟨p, hp⟩
    simp only [rtpPacketParsedFromPacketData, Throws.bind_eq_ok, checkOperation_eq_ok] at hp
    obtain ⟨-, hlength, flags, hflags, -, hversion, marker, -, marker', -, ⟨q, offset, minSize⟩,
      hq, ⟨r, offset', minSize'⟩, hr, t, ht, -⟩ := hp
    obtain ⟨hfits, rfl, rfl⟩ := readContributingSources_fits hflags hq
    have hbounds := readExtensionHeaderFromPacketData_bounds hflags rfl hr hfits
    refine ⟨hlength, flags, hflags, hversion, hfits, offset',
      extensionHeaderEnds_of_read hflags hr, fun hbit hadjusted => ?_⟩
    rw [hbounds.2.2 hadjusted]
    exact (readPadding_iff_fits r hflags).mp ⟨t, ht⟩ hbit hadjusted
  · rintro ⟨hlength, flags, hflags, hversion, hfits, extensionEnd, hextension, hpadding⟩
    have hlong : 12 ≤ data.length := hlength
    obtain ⟨marker, hmarker⟩ := uint8At_of_lt (show 1 < data.length by omega)
    have hsources (p : RtpPacket) := p.readContributingSourcesFromPacketData_cases 12 hflags
    simp only [if_pos hfits] at hsources
    obtain ⟨q, hq, hqPadding⟩ := hsources { new with
      rawPacketData := some data
      version := flags >>> versionIndex
      isMarkerBitSet := hasBit marker markerBitIndex
      payloadType := marker &&& payloadTypeMask }
    obtain ⟨r, minSize, hr⟩ := q.readExtensionHeader_of_ends hflags hextension
    have hbounds := readExtensionHeaderFromPacketData_bounds hflags rfl hr hfits
    obtain ⟨t, ht⟩ := (readPadding_iff_fits r hflags).mpr
      fun hbit hadjusted => hbounds.2.2 hadjusted ▸ hpadding hbit hadjusted
    have hend := readPaddingFromPacketData_bounds hflags rfl ht (hbounds.1.trans hqPadding)
      hbounds.2.1 hbounds.2.2
    have hrange : extensionEnd + subtractNSUInteger
        (subtractNSUInteger data.length t.padding.toNat) extensionEnd ≤ data.length := by
      rw [subtractNSUInteger_of_le (show t.padding.toNat ≤ data.length by omega),
        subtractNSUInteger_of_le (by omega)]
      omega
    have hpayload := subdataWithRange_eq_ok.mpr ⟨hrange, rfl⟩
    obtain ⟨sequenceNumber, hsequenceNumber⟩ := bigEndianUInt16At_of_le
      (Nat.le_trans (by decide : sequenceNumberOffset + 2 ≤ 12) hlong)
    obtain ⟨timeStamp, htimeStamp⟩ := bigEndianUInt32At_of_le
      (Nat.le_trans (by decide : timeStampOffset + 4 ≤ 12) hlong)
    obtain ⟨source, hsource⟩ := bigEndianUInt32At_of_le
      (Nat.le_trans (by decide : synchronizationSourceIdentifierOffset + 4 ≤ 12) hlong)
    simp only [rtpPacketParsedFromPacketData, Throws.bind_eq_ok, checkOperation_eq_ok, hflags,
      hmarker, Except.ok.injEq, exists_eq_left']
    exact ⟨_, ⟨⟩, hlength, ⟨⟩, hversion, _, hq, _, hr, t, ht, _, hpayload, sequenceNumber,
      hsequenceNumber, timeStamp, htimeStamp, source, hsource, rfl⟩

/-- Reading an extension header sets the fields that belong to it. -/
theorem readExtensionHeader_fields {p q : RtpPacket} {minSize offset' minSize' : ℕ}
    (h : p.readExtensionHeaderFromPacketData environment data offset minSize =
      .ok (q, offset', minSize'))
    (hp : p.extensionHeaderIdentifier = 0 ∧ p.extensionHeaderData = none) :
    ∃ hasExtensionHeader extensionHeaderIdentifier extensionHeaderData adjusted,
      q = { p with
        hasExtensionHeader, extensionHeaderIdentifier, extensionHeaderData
        wasAdjustedDueToInteropIssues := adjusted } ∧
      hasExtensionHeader = extensionHeaderData.isSome ∧
      (∀ data ∈ extensionHeaderData, data.length ≤ maxExtensionHeaderLength) ∧
      (hasExtensionHeader = false → extensionHeaderIdentifier = 0) := by
  obtain ⟨flags, hflags, -⟩ := Throws.bind_eq_ok.mp h
  rw [readExtensionHeaderFromPacketData_eq_ok hflags rfl] at h
  split at h
  case isTrue =>
    obtain ⟨identifier, length, -, -, -, -, -, -, rfl⟩ := h
    refine ⟨true, identifier, some _, _, rfl, rfl, ?_, by simp⟩
    rintro _ ⟨⟩
    have hlt := length.toNat_lt
    rw [List.length_take, maxExtensionHeaderLength]
    omega
  case isFalse =>
    obtain ⟨rfl, -, -⟩ := h
    exact ⟨false, 0, none, _, by rw [← hp.1, ← hp.2], rfl, by simp, fun _ => rfl⟩

/-- Reading the padding sets its size, or finds that the packet has been adjusted. -/
theorem readPadding_fields {p q : RtpPacket} {minSize : ℕ}
    (h : p.readPaddingFromPacketData environment data minSize = .ok q) :
    ∃ padding adjusted, q = { p with padding, wasAdjustedDueToInteropIssues := adjusted } := by
  obtain ⟨flags, hflags, -⟩ := Throws.bind_eq_ok.mp h
  rw [readPaddingFromPacketData_eq_ok hflags rfl] at h
  split at h
  case isTrue =>
    obtain ⟨padding, -, -, -, rfl⟩ := h
    exact ⟨_, _, rfl⟩
  case isFalse =>
    obtain rfl := h
    exact ⟨_, _, rfl⟩

/-- What is known of every packet that was parsed from `data`. But for the mark of an adjusted
packet it meets what the factories make sure of. -/
structure ParsedFrom (data : NSData) (p : RtpPacket) : Prop where
  valid : ({ p with wasAdjustedDueToInteropIssues := false } : RtpPacket).Valid
  rawPacketData : p.rawPacketData = some data
  payload : p.payload.length ≤ data.length

theorem parsedFrom {p : RtpPacket} (h : rtpPacketParsedFromPacketData environment data = .ok p) :
    ParsedFrom data p := by
  simp only [rtpPacketParsedFromPacketData, Throws.bind_eq_ok, checkOperation_eq_ok,
    Throws.pure_eq_ok] at h
  obtain ⟨-, hlength, flags, hflags, -, hversion, marker, -, marker', -, ⟨q, offset, minSize⟩, hq,
    ⟨r, offset', minSize'⟩, hr, t, ht, payload, hpayload, sequenceNumber, -, timeStamp, -, source,
    -, rfl⟩ := h
  obtain ⟨ccsrcs, rfl, hcount, -, -, -⟩ := readContributingSourcesFromPacketData_sound hq
  obtain ⟨hasExtensionHeader, identifier, extensionData, adjusted, rfl, hextension, hlimit,
    hidentifier⟩ := readExtensionHeader_fields hr ⟨rfl, rfl⟩
  obtain ⟨padding, adjusted', rfl⟩ := readPadding_fields ht
  obtain ⟨hrange, rfl⟩ := subdataWithRange_eq_ok.mp hpayload
  constructor
  case valid =>
    refine ⟨?_, ?_, hcount, hextension, hlimit, hidentifier, rfl⟩
    · rcases hversion with h | h <;> simp only [h] <;> rfl
    · show (marker' &&& payloadTypeMask) &&& 0x80 = 0
      rw [UInt8.and_assoc]
      exact UInt8.and_zero
  case rawPacketData => rfl
  case payload =>
    rw [List.length_take, List.length_drop]
    omega

theorem ParsedFrom.withPayload_returns {p : RtpPacket} (hp : ParsedFrom data p)
    (payload : NSData) : ∃ q, p.withPayload payload = .ok q :=
  ⟨_, hp.valid.withPayload_eq payload⟩

end RtpPacket
end SignalIOS.Rtp
