import SignalIOS.Rtp.RtpPacketParser

/-! Which byte strings make the parser raise something other than `OperationFailed`. Every access
outside of the data raises something else, and so does a range whose length has wrapped around. -/
namespace SignalIOS

namespace NSData
open Throws

variable {data : NSData} {n : ℕ}

theorem failsSafely_uint8At : FailsSafely (data.uint8At n) ↔ n < data.length := by
  unfold uint8At
  split
  case h_1 hnone =>
    constructor
    · intro h
      obtain ⟨_, hd⟩ := h _ rfl
      cases hd
    · intro hn
      exact absurd hnone (by simp [hn])
  case h_2 byte hsome =>
    obtain ⟨hn, -⟩ := List.getElem?_eq_some_iff.mp hsome
    exact iff_of_true (failsSafely_ok _) hn

theorem uint8At_of_lt (h : n < data.length) : ∃ byte, data.uint8At n = .ok byte :=
  ⟨data[n], uint8At_eq_ok.mpr (List.getElem?_eq_getElem h)⟩

theorem bigEndianUInt16At_of_le (h : n + 2 ≤ data.length) :
    ∃ value, data.bigEndianUInt16At n = .ok value := by
  obtain ⟨low, hlow⟩ := uint8At_of_lt (show 1 + n < data.length by omega)
  obtain ⟨high, hhigh⟩ := uint8At_of_lt (show n < data.length by omega)
  exact ⟨_, by rw [bigEndianUInt16At, hlow, hhigh]; rfl⟩

theorem bigEndianUInt32At_of_le (h : n + 4 ≤ data.length) :
    ∃ value, data.bigEndianUInt32At n = .ok value := by
  obtain ⟨b0, h0⟩ := uint8At_of_lt (show 3 + n < data.length by omega)
  obtain ⟨b1, h1⟩ := uint8At_of_lt (show 2 + n < data.length by omega)
  obtain ⟨b2, h2⟩ := uint8At_of_lt (show 1 + n < data.length by omega)
  obtain ⟨b3, h3⟩ := uint8At_of_lt (show n < data.length by omega)
  exact ⟨_, by rw [bigEndianUInt32At, h0, h1, h2, h3]; rfl⟩

theorem failsSafely_bigEndianUInt16At :
    FailsSafely (data.bigEndianUInt16At n) ↔ n + 2 ≤ data.length := by
  constructor
  · intro h
    have hlow := failsSafely_uint8At.mp (failsSafely_bind.mp h).1
    omega
  · intro h
    obtain ⟨value, hvalue⟩ := bigEndianUInt16At_of_le h
    rw [hvalue]
    exact failsSafely_ok _

theorem failsSafely_bigEndianUInt32At (h : n + 4 ≤ data.length) :
    FailsSafely (data.bigEndianUInt32At n) := by
  obtain ⟨value, hvalue⟩ := bigEndianUInt32At_of_le h
  rw [hvalue]
  exact failsSafely_ok _

theorem failsSafely_subdataWithRange {length : ℕ} :
    FailsSafely (data.subdataWithRange n length) ↔ n + length ≤ data.length := by
  unfold subdataWithRange
  split
  case isTrue h => exact iff_of_true (failsSafely_ok _) h
  case isFalse h =>
    refine iff_of_false ?_ h
    intro hsafe
    obtain ⟨_, hd⟩ := hsafe _ rfl
    cases hd

end NSData

namespace Rtp
open Throws NSData

/-- The option moves the extension header by twelve bytes. The packet is as long as it must be
with an extension header that has not moved, but ends before the one that has. -/
def LegacyHeaderCutShort (environment : Environment) (data : NSData) : Prop :=
  environment.hasEnabledTestingOrLegacyOption legacyRtpOption = true ∧
    ∃ flags, data.uint8At 0 = .ok flags ∧ hasBit flags hasPaddingBitIndex = true ∧
      (flags >>> versionIndex = supportedRtpVersion ∨ flags >>> versionIndex = rtpVersionForZrtp) ∧
      let headerEnd := 12 + 4 * (lowUInt4OfUint8 flags).toNat
      headerEnd + 4 ≤ data.length ∧ (data.length < headerEnd + 16 ∨
        ∃ extensionLength, data.bigEndianUInt16At (headerEnd + 14) = .ok extensionLength ∧
          headerEnd + 4 + extensionLength.toNat ≤ data.length ∧
          data.length < headerEnd + 16 + extensionLength.toNat)

namespace RtpPacket

theorem readContributingSources_of_le {data : NSData} {count offset : ℕ}
    (h : offset + 4 * count ≤ data.length) :
    ∃ ccsrcs, readContributingSources data count offset = .ok (ccsrcs, offset + 4 * count) := by
  induction count generalizing offset with
  | zero => exact ⟨[], rfl⟩
  | succ count ih =>
    obtain ⟨ccsrc, hccsrc⟩ :=
      NSData.bigEndianUInt32At_of_le (show offset + 4 ≤ data.length by omega)
    obtain ⟨ccsrcs, hccsrcs⟩ := ih (show offset + 4 + 4 * count ≤ data.length by omega)
    have hcount : offset + 4 * (count + 1) = offset + 4 + 4 * count := by omega
    refine ⟨ccsrc :: ccsrcs, ?_⟩
    simp only [readContributingSources, hccsrc, Throws.bind_eq_ok, Throws.pure_eq_ok, hcount]
    exact ⟨ccsrc, rfl, _, hccsrcs, rfl⟩

theorem readContributingSourcesFromPacketData_cases (p : RtpPacket) {data : NSData}
    {flags : UInt8} (offset : ℕ) (hflags : data.uint8At 0 = .ok flags) :
    let headerEnd := offset + 4 * (lowUInt4OfUint8 flags).toNat
    if headerEnd ≤ data.length then
      ∃ q, p.readContributingSourcesFromPacketData data offset offset =
        .ok (q, headerEnd, headerEnd) ∧ q.padding = p.padding
    else ∃ description, p.readContributingSourcesFromPacketData data offset offset =
      .error (.operationFailed description) := by
  intro headerEnd
  have hminSize : offset + (lowUInt4OfUint8 flags).toNat * contributingSourceIdLength =
      headerEnd := by
    rw [contributingSourceIdLength, Nat.mul_comm]
  simp only [readContributingSourcesFromPacketData, hflags, bind, Except.bind, hminSize]
  split
  case isTrue hfits =>
    obtain ⟨ccsrcs, hccsrcs⟩ := readContributingSources_of_le hfits
    refine ⟨{ p with contributingSourceIdentifiers := ccsrcs }, ?_, rfl⟩
    rw [checkOperation, if_pos hfits, hccsrcs]
    rfl
  case isFalse hshort =>
    rw [checkOperation, if_neg hshort]
    exact ⟨_, rfl⟩

/-- Reading an extension header is safe unless it has moved, and ends after the data where it would
not have without. -/
theorem failsSafely_readExtensionHeaderFromPacketData {p : RtpPacket} {environment : Environment}
    {data : NSData} {flags : UInt8} {adjusted : Bool} {offset : ℕ}
    (hflags : data.uint8At 0 = .ok flags)
    (hadjusted : (environment.hasEnabledTestingOrLegacyOption legacyRtpOption &&
      hasBit flags hasPaddingBitIndex) = adjusted) :
    FailsSafely (p.readExtensionHeaderFromPacketData environment data offset offset) ↔
      (adjusted = true → offset + 4 ≤ data.length → offset + 16 ≤ data.length ∧
        ∀ extensionLength, data.bigEndianUInt16At (offset + 14) = .ok extensionLength →
          offset + 4 + extensionLength.toNat ≤ data.length →
          offset + 16 + extensionLength.toNat ≤ data.length) := by
  simp only [readExtensionHeaderFromPacketData, failsSafely_bind, hflags, failsSafely_ok, true_and,
    Except.ok.injEq, forall_eq', hadjusted]
  cases adjusted with
  | true =>
    simp only [if_true, failsSafely_bind, failsSafely_checkOperation, checkOperation_eq_ok,
      failsSafely_bigEndianUInt16At, failsSafely_subdataWithRange, true_and]
    simp only [extensionHeaderIdentifierLength, extensionHeaderLengthLength]
    constructor
    · intro h _ hsize
      obtain ⟨hidentifier, h⟩ := h ⟨⟩ hsize
      obtain ⟨identifier, hok⟩ := NSData.bigEndianUInt16At_of_le hidentifier
      obtain ⟨hlength, h⟩ := h identifier hok
      refine ⟨by omega, fun extensionLength hextensionLength hend => ?_⟩
      have hdata := (h extensionLength hextensionLength ⟨⟩ hend).1
      omega
    · intro h _ hsize
      obtain ⟨hheader, h⟩ := h trivial hsize
      refine ⟨by omega, fun _ _ => ⟨by omega, fun extensionLength hextensionLength _ hend => ?_⟩⟩
      have hdata := h extensionLength hextensionLength hend
      exact ⟨by omega, fun _ _ => failsSafely_ok _⟩
  | false =>
    simp only [Bool.false_eq_true, if_false, false_implies, iff_true]
    split
    case isTrue =>
      simp only [failsSafely_bind, failsSafely_checkOperation, checkOperation_eq_ok,
        failsSafely_bigEndianUInt16At, failsSafely_subdataWithRange, true_and]
      simp only [extensionHeaderIdentifierLength, extensionHeaderLengthLength]
      intro _ hsize
      refine ⟨by omega, fun _ _ => ⟨by omega, fun extensionLength _ _ hend => ?_⟩⟩
      exact ⟨by omega, fun _ _ => failsSafely_ok _⟩
    case isFalse => exact failsSafely_ok _

theorem readExtensionHeaderFromPacketData_bounds {p q : RtpPacket} {environment : Environment}
    {data : NSData} {flags : UInt8} {adjusted : Bool} {offset offset' minSize' : ℕ}
    (hflags : data.uint8At 0 = .ok flags)
    (hadjusted : (environment.hasEnabledTestingOrLegacyOption legacyRtpOption &&
      hasBit flags hasPaddingBitIndex) = adjusted)
    (h : p.readExtensionHeaderFromPacketData environment data offset offset =
      .ok (q, offset', minSize')) (hoffset : offset ≤ data.length) :
    q.padding = p.padding ∧ offset' ≤ data.length ∧ (adjusted = false → offset' = minSize') := by
  rw [readExtensionHeaderFromPacketData_eq_ok hflags hadjusted] at h
  split at h
  case isTrue =>
    obtain ⟨identifier, length, -, -, rfl, hrange, rfl, -, rfl⟩ := h
    refine ⟨rfl, hrange, ?_⟩
    rintro rfl
    rfl
  case isFalse =>
    obtain ⟨rfl, rfl, rfl⟩ := h
    exact ⟨rfl, hoffset, fun _ => rfl⟩

theorem failsSafely_readPaddingFromPacketData {p : RtpPacket} {environment : Environment}
    {data : NSData} {minSize : ℕ} (hdata : 0 < data.length) :
    FailsSafely (p.readPaddingFromPacketData environment data minSize) := by
  simp only [readPaddingFromPacketData, failsSafely_bind, failsSafely_uint8At, hdata, true_and]
  intro flags _
  split
  case isTrue =>
    split
    case isTrue => exact failsSafely_ok _
    case isFalse =>
      rw [subtractNSUInteger_of_le hdata]
      simp only [failsSafely_bind, failsSafely_uint8At]
      exact ⟨by omega, fun _ _ => ⟨failsSafely_checkOperation, fun _ _ =>
        ⟨failsSafely_checkOperation, fun _ _ => failsSafely_ok _⟩⟩⟩
  case isFalse => exact failsSafely_ok _

theorem readPaddingFromPacketData_bounds {p q : RtpPacket} {environment : Environment}
    {data : NSData} {flags : UInt8} {adjusted : Bool} {offset minSize : ℕ}
    (hflags : data.uint8At 0 = .ok flags)
    (hadjusted : (environment.hasEnabledTestingOrLegacyOption legacyRtpOption &&
      hasBit flags hasPaddingBitIndex) = adjusted)
    (h : p.readPaddingFromPacketData environment data minSize = .ok q) (hp : p.padding = 0)
    (hoffset : offset ≤ data.length) (hminSize : adjusted = false → offset = minSize) :
    offset + q.padding.toNat ≤ data.length := by
  rw [readPaddingFromPacketData_eq_ok hflags hadjusted] at h
  split at h
  case isTrue hread =>
    obtain ⟨padding, -, -, hpadding, rfl⟩ := h
    obtain ⟨-, hnot⟩ := Bool.and_eq_true_iff.mp hread
    rw [Bool.not_eq_true'] at hnot
    rw [hminSize hnot]
    exact hpadding
  case isFalse =>
    obtain rfl := h
    simpa [hp] using hoffset

theorem not_legacyHeaderCutShort_of_failsSafely {environment : Environment} {data : NSData}
    (h : FailsSafely (rtpPacketParsedFromPacketData environment data)) :
    ¬ LegacyHeaderCutShort environment data := by
  simp only [rtpPacketParsedFromPacketData, failsSafely_bind, failsSafely_checkOperation,
    checkOperation_eq_ok, true_and, failsSafely_uint8At] at h
  simp only [minimumRtpHeaderLength] at h
  rintro ⟨hoption, flags, hflags, hbit, hversion, hlength, hcut⟩
  obtain ⟨marker, hmarker⟩ := uint8At_of_lt (show 1 < data.length by omega)
  have h := ((((h ⟨⟩ (by omega)).2 flags hflags ⟨⟩ hversion).2 marker hmarker).2 marker hmarker).2
  have hsources (p : RtpPacket) := p.readContributingSourcesFromPacketData_cases 12 hflags
  simp only [if_pos (show 12 + 4 * (lowUInt4OfUint8 flags).toNat ≤ data.length by omega)]
    at hsources
  obtain ⟨p, hp, -⟩ := hsources _
  have hextension := (failsSafely_readExtensionHeaderFromPacketData hflags
    (Bool.and_eq_true_iff.mpr ⟨hoption, hbit⟩)).mp (h _ hp).1 rfl hlength
  dsimp only at hextension
  rcases hcut with hcut | ⟨extensionLength, hextensionLength, hend, hcut⟩
  · omega
  · have hsafe := hextension.2 extensionLength hextensionLength hend
    omega

/-- The reads after the padding are those of the payload and of the fixed fields. -/
theorem failsSafely_fixedFields {data : NSData} (hlength : 12 ≤ data.length) :
    FailsSafely (getSequenceNumberFromPacketData data) ∧
      FailsSafely (getTimeStampFromPacketData data) ∧
      FailsSafely (getSynchronizationSourceIdentifierFromPacketData data) := by
  refine ⟨failsSafely_bigEndianUInt16At.mpr ?_, failsSafely_bigEndianUInt32At ?_,
    failsSafely_bigEndianUInt32At ?_⟩
  all_goals
    simp only [sequenceNumberOffset, timeStampOffset, synchronizationSourceIdentifierOffset]
    omega

theorem failsSafely_of_not_legacyHeaderCutShort {environment : Environment} {data : NSData}
    (hcut : ¬ LegacyHeaderCutShort environment data) :
    FailsSafely (rtpPacketParsedFromPacketData environment data) := by
  simp only [rtpPacketParsedFromPacketData, failsSafely_bind, failsSafely_checkOperation,
    checkOperation_eq_ok, true_and, failsSafely_uint8At]
  simp only [minimumRtpHeaderLength]
  intro _ hlength
  refine ⟨by omega, fun flags hflags _ hversion => ⟨by omega, fun marker _ => ⟨by omega,
    fun marker' _ => ?_⟩⟩⟩
  generalize hadjusted : (environment.hasEnabledTestingOrLegacyOption legacyRtpOption &&
    hasBit flags hasPaddingBitIndex) = adjusted
  have hsources (p : RtpPacket) := p.readContributingSourcesFromPacketData_cases 12 hflags
  by_cases hfits : 12 + 4 * (lowUInt4OfUint8 flags).toNat ≤ data.length
  · simp only [if_pos hfits] at hsources
    obtain ⟨p, hp, hpadding⟩ := hsources _
    rw [hp]
    refine ⟨failsSafely_ok _, ?_⟩
    rintro _ ⟨⟩
    refine ⟨(failsSafely_readExtensionHeaderFromPacketData hflags hadjusted).mpr ?_, ?_⟩
    · rintro rfl hextension
      obtain ⟨hoption, hbit⟩ := Bool.and_eq_true_iff.mp hadjusted
      have hnot := fun hshort => hcut ⟨hoption, flags, hflags, hbit, hversion, hextension, hshort⟩
      refine ⟨?_, fun extensionLength hextensionLength hend => ?_⟩
      · exact Nat.not_lt.mp fun hlt => hnot (.inl hlt)
      · exact Nat.not_lt.mp fun hlt => hnot (.inr ⟨extensionLength, hextensionLength, hend, hlt⟩)
    · rintro ⟨q, offset, minSize⟩ hq
      obtain ⟨hqPadding, hoffset, hminSize⟩ :=
        readExtensionHeaderFromPacketData_bounds hflags hadjusted hq hfits
      refine ⟨failsSafely_readPaddingFromPacketData (by omega), fun r hr => ?_⟩
      have hend := readPaddingFromPacketData_bounds hflags hadjusted hr
        (hqPadding.trans hpadding) hoffset hminSize
      dsimp only at hend ⊢
      rw [subtractNSUInteger_of_le (show r.padding.toNat ≤ data.length by omega),
        subtractNSUInteger_of_le (by omega)]
      obtain ⟨hsequenceNumber, htimeStamp, hsource⟩ := failsSafely_fixedFields hlength
      exact ⟨failsSafely_subdataWithRange.mpr (by omega), fun _ _ => ⟨hsequenceNumber, fun _ _ =>
        ⟨htimeStamp, fun _ _ => ⟨hsource, fun _ _ => failsSafely_ok _⟩⟩⟩⟩
  · simp only [if_neg hfits] at hsources
    obtain ⟨description, herror⟩ := hsources _
    rw [herror]
    refine ⟨failsSafely_iff.mpr (.inr ⟨description, rfl⟩), ?_⟩
    rintro _ ⟨⟩

/-- A range whose length has wrapped around is outside of the data: a parser that raises nothing but
`OperationFailed` has subtracted nothing that wraps. -/
theorem subdataWithRange_of_wrapped {data : NSData} {offset padding : ℕ}
    (hpadding : padding < nsUIntegerRange) (h : data.length < padding + offset) :
    data.subdataWithRange offset
      (subtractNSUInteger (subtractNSUInteger data.length padding) offset) =
        .error .nsRangeException := by
  apply if_neg
  unfold subtractNSUInteger
  split <;> split <;> omega

/-- The parser returns a packet, or raises `OperationFailed`. -/
def ParsesOrFails (environment : Environment) (data : NSData) : Prop :=
  (∃ p, rtpPacketParsedFromPacketData environment data = .ok p) ∨
    ∃ description, rtpPacketParsedFromPacketData environment data =
      .error (.operationFailed description)

theorem parsesOrFails_iff (environment : Environment) (data : NSData) :
    ParsesOrFails environment data ↔ ¬ LegacyHeaderCutShort environment data :=
  failsSafely_iff.symm.trans
    ⟨not_legacyHeaderCutShort_of_failsSafely, failsSafely_of_not_legacyHeaderCutShort⟩

/-- With the legacy option, sixteen bytes whose padding bit is set are read behind their end. -/
theorem not_parsesOrFails :
    ¬ ∀ (environment : Environment) (data : NSData), ParsesOrFails environment data := by
  intro h
  have hbytes := h ⟨[], [], [], [legacyRtpOption]⟩ (0xA0 :: List.replicate 15 0)
  have hraised : rtpPacketParsedFromPacketData ⟨[], [], [], [legacyRtpOption]⟩
      (0xA0 :: List.replicate 15 0) = .error .badArgument := rfl
  rw [ParsesOrFails, hraised] at hbytes
  rcases hbytes with ⟨p, hp⟩ | ⟨description, herror⟩
  · cases hp
  · cases herror

end RtpPacket
end Rtp
end SignalIOS
