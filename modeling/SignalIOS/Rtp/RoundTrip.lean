import SignalIOS.Rtp.RtpPacketParser

/-! Packets are read back from their serialization as they were, and what is accepted is well
formed. -/
namespace SignalIOS.Rtp

namespace RtpPacket

/-- What the factories make sure of. -/
structure Valid (p : RtpPacket) : Prop where
  version : p.version &&& 0xFC = 0
  payloadType : p.payloadType &&& 0x80 = 0
  contributingSources : p.contributingSourceIdentifiers.length < 0x10
  extensionHeader : p.hasExtensionHeader = p.extensionHeaderData.isSome
  extensionHeaderLength : ∀ data ∈ p.extensionHeaderData, data.length ≤ maxExtensionHeaderLength
  noExtensionHeader : p.hasExtensionHeader = false → p.extensionHeaderIdentifier = 0
  notAdjusted : p.wasAdjustedDueToInteropIssues = false

theorem valid_of_rtpPacketWithVersion {q p : RtpPacket} (h : rtpPacketWithVersion q = .ok p) :
    p.Valid ∧ p.rawPacketData = none := by
  simp only [rtpPacketWithVersion, Throws.bind_eq_ok, owsRequire_eq_ok] at h
  obtain ⟨-, hversion, -, hpayloadType, -, hcontributing, h⟩ := h
  split at h
  case isTrue hextension =>
    simp only [Throws.bind_eq_ok, owsRequireNotNil_eq_ok, owsRequire_eq_ok] at h
    obtain ⟨data, hdata, -, hlength, h⟩ := h
    obtain rfl := Except.ok.inj h
    constructor
    · constructor <;> simp_all [maxExtensionHeaderLength]
      omega
    · rfl
  case isFalse hextension =>
    obtain rfl := Except.ok.inj h
    constructor
    · constructor <;> simp_all
    · rfl

theorem Valid.setPayload {p : RtpPacket} (hp : p.Valid) (payload : NSData)
    (rawPacketData : Option NSData) : ({ p with payload, rawPacketData } : RtpPacket).Valid :=
  ⟨hp.version, hp.payloadType, hp.contributingSources, hp.extensionHeader,
    hp.extensionHeaderLength, hp.noExtensionHeader, hp.notAdjusted⟩

theorem Valid.withPayload_eq {p : RtpPacket} (hp : p.Valid) (payload : NSData) :
    p.withPayload payload = .ok { p with payload, rawPacketData := none } := by
  simp only [withPayload, rtpPacketWithVersion, Throws.bind_eq_ok, owsRequire_eq_ok]
  refine ⟨⟨⟩, hp.version, ⟨⟩, hp.payloadType, ⟨⟩, hp.contributingSources, ?_⟩
  have hextension := hp.extensionHeader
  cases hdata : p.extensionHeaderData with
  | none =>
    have hnone : p.hasExtensionHeader = false := by rw [hextension, hdata]; rfl
    rw [if_neg (by simp [hnone]), Throws.pure_eq_ok, ← hp.noExtensionHeader hnone, ← hdata,
      ← hp.notAdjusted]
  | some data =>
    have hsome : p.hasExtensionHeader = true := by rw [hextension, hdata]; rfl
    have hlength := hp.extensionHeaderLength data hdata
    simp only [maxExtensionHeaderLength] at hlength
    rw [if_pos hsome]
    simp only [Throws.bind_eq_ok, owsRequireNotNil_eq_ok, owsRequire_eq_ok, Throws.pure_eq_ok]
    exact ⟨data, rfl, ⟨⟩, by omega, by rw [← hp.notAdjusted]⟩

/-- The first byte of a packet. -/
def flagsByte (p : RtpPacket) : UInt8 :=
  p.version <<< versionIndex ||| (if p.padding > 0 then 1 <<< hasPaddingBitIndex else 0) |||
    (if p.hasExtensionHeader then 1 <<< hasExtensionHeaderBitIndex else 0) |||
      UInt8.ofNat p.contributingSourceIdentifiers.length

/-- The second byte. -/
def markerByte (p : RtpPacket) : UInt8 :=
  (if p.isMarkerBitSet then 1 <<< markerBitIndex else 0) ||| p.payloadType

/-- The bytes of the packet with these `flags`, and with `gap` in front of the extension header. -/
def layout (p : RtpPacket) (flags : UInt8) (gap : NSData) : NSData :=
  [flags, p.markerByte] ++ (dataWithBigEndianBytesOfUInt16 p.sequenceNumber ++
    (dataWithBigEndianBytesOfUInt32 p.timeStamp ++
    (dataWithBigEndianBytesOfUInt32 p.synchronizationSourceIdentifier ++ (p.generateCcrcData ++
    (gap ++ (p.generateExtensionHeaderData ++ (p.payload ++ p.generatePaddingData)))))))

theorem Valid.generateSerializedPacketData {p : RtpPacket} (hp : p.Valid)
    (environment : Environment) (interopOptions : List TestingOrLegacyOption) :
    p.generateSerializedPacketData environment interopOptions =
      .ok (p.layout p.flagsByte
        (if environment.hasEnabledTestingOrLegacyOption legacyRtpOption &&
          interopOptions.contains legacyRtpOption && p.hasExtensionHeader then
            List.replicate 12 0 else [])) := by
  have hflags : p.generateFlags = .ok [p.flagsByte, p.markerByte] := by
    simp only [generateFlags, requireState, if_pos hp.version, if_pos hp.payloadType,
      if_pos hp.contributingSources]
    rfl
  simp only [RtpPacket.generateSerializedPacketData, requireState, if_pos hp.extensionHeader,
    if_pos hp.extensionHeaderLength, hflags, layout, List.append_assoc]
  rfl

theorem Valid.rawPacketDataUsingInteropOptions_eq {p : RtpPacket} (hp : p.Valid)
    (hraw : p.rawPacketData = none) (environment : Environment) :
    p.rawPacketDataUsingInteropOptions environment [] = .ok (p.layout p.flagsByte []) := by
  rw [RtpPacket.rawPacketDataUsingInteropOptions, hraw]
  simp only
  rw [hp.generateSerializedPacketData]
  simp

@[simp] theorem length_generateCcrcData (p : RtpPacket) :
    p.generateCcrcData.length = 4 * p.contributingSourceIdentifiers.length := by
  unfold generateCcrcData
  induction p.contributingSourceIdentifiers with
  | nil => rfl
  | cons ccsrc ccsrcs ih =>
    simp only [List.map_cons, List.flatten_cons, List.length_append, List.length_cons, ih,
      length_dataWithBigEndianBytesOfUInt32]
    omega

@[simp] theorem length_generatePaddingData (p : RtpPacket) :
    p.generatePaddingData.length = p.padding.toNat := by
  simp [generatePaddingData]

/-! Reading the flags. -/

theorem version_lt {version : UInt8} (h : version &&& 0xFC = 0) : version < 4 := by
  have hall : ∀ n : Fin 256, UInt8.ofNat n &&& 0xFC = 0 → UInt8.ofNat n < 4 := by decide +kernel
  have hversion := hall ⟨version.toNat, version.toNat_lt⟩
  rw [UInt8.ofNat_toNat] at hversion
  exact hversion h

/-- What is appended to the payload of an unpadded packet is appended to its bytes. -/
theorem layout_append (p : RtpPacket) (hpadding : p.padding = 0) (payload suffix : NSData)
    (flags : UInt8) (gap : NSData) :
    ({ p with payload := payload ++ suffix } : RtpPacket).layout flags gap =
      ({ p with payload := payload } : RtpPacket).layout flags gap ++ suffix := by
  have hempty (payload : NSData) :
      ({ p with payload := payload } : RtpPacket).generatePaddingData = [] := by
    simp only [generatePaddingData, hpadding]
    rfl
  simp only [layout, hempty, List.append_assoc, List.append_nil]
  rfl

theorem readFlags (version : UInt8) (hversion : version < 4) (padding extension : Bool) (count : ℕ)
    (hcount : count < 0x10) (flags : UInt8)
    (hflags : flags = version <<< versionIndex ||| (if padding then 1 <<< hasPaddingBitIndex else 0)
      ||| (if extension then 1 <<< hasExtensionHeaderBitIndex else 0) ||| UInt8.ofNat count) :
    flags >>> versionIndex = version ∧ hasBit flags hasPaddingBitIndex = padding ∧
      hasBit flags hasExtensionHeaderBitIndex = extension ∧
      (lowUInt4OfUint8 flags).toNat = count := by
  have hall : ∀ (v : Fin 4) (padding extension : Bool) (c : Fin 16),
      let flags := UInt8.ofNat v <<< versionIndex |||
        (if padding then 1 <<< hasPaddingBitIndex else 0) |||
        (if extension then 1 <<< hasExtensionHeaderBitIndex else 0) ||| UInt8.ofNat c
      flags >>> versionIndex = UInt8.ofNat v ∧ hasBit flags hasPaddingBitIndex = padding ∧
        hasBit flags hasExtensionHeaderBitIndex = extension ∧
        (lowUInt4OfUint8 flags).toNat = c := by
    decide
  have h := hall ⟨version.toNat, UInt8.lt_iff_toNat_lt.mp hversion⟩ padding extension
    ⟨count, hcount⟩
  rw [UInt8.ofNat_toNat] at h
  rw [hflags]
  exact h

theorem readMarkerByte {p : RtpPacket} (hp : p.payloadType &&& 0x80 = 0) :
    hasBit p.markerByte markerBitIndex = p.isMarkerBitSet ∧
      p.markerByte &&& payloadTypeMask = p.payloadType := by
  have hall : ∀ (marker : Bool) (n : Fin 256), UInt8.ofNat n &&& 0x80 = 0 →
      let byte := (if marker then 1 <<< markerBitIndex else 0) ||| UInt8.ofNat n
      hasBit byte markerBitIndex = marker ∧ byte &&& payloadTypeMask = UInt8.ofNat n := by
    decide +kernel
  have h := hall p.isMarkerBitSet ⟨p.payloadType.toNat, p.payloadType.toNat_lt⟩
  rw [UInt8.ofNat_toNat] at h
  exact h hp

theorem readContributingSources_of_drop {data rest : NSData} {ccsrcs : List UInt32} {offset : ℕ}
    (h : data.drop offset = (ccsrcs.map dataWithBigEndianBytesOfUInt32).flatten ++ rest) :
    readContributingSources data ccsrcs.length offset =
      .ok (ccsrcs, offset + 4 * ccsrcs.length) := by
  induction ccsrcs generalizing offset with
  | nil => rfl
  | cons ccsrc ccsrcs ih =>
    rw [List.map_cons, List.flatten_cons, List.append_assoc] at h
    have hccsrc := NSData.bigEndianUInt32At_of_drop h
    have hccsrcs : readContributingSources data ccsrcs.length (offset + 4) = _ :=
      ih (NSData.drop_of_drop h)
    rw [List.length_cons, readContributingSources, hccsrc]
    simp only [Except.bind, bind, contributingSourceIdLength, hccsrcs, pure, Except.pure]
    rw [show offset + 4 + 4 * ccsrcs.length = offset + 4 * (ccsrcs.length + 1) by omega]

theorem readContributingSourcesFromPacketData_of_drop {p : RtpPacket} {data rest : NSData}
    {flags : UInt8} {ccsrcs : List UInt32} {offset minSize : ℕ}
    (hflags : data.uint8At 0 = .ok flags) (hcount : (lowUInt4OfUint8 flags).toNat = ccsrcs.length)
    (hsize : minSize + 4 * ccsrcs.length ≤ data.length)
    (h : data.drop offset = (ccsrcs.map dataWithBigEndianBytesOfUInt32).flatten ++ rest) :
    p.readContributingSourcesFromPacketData data offset minSize =
      .ok ({ p with contributingSourceIdentifiers := ccsrcs }, offset + 4 * ccsrcs.length,
        minSize + 4 * ccsrcs.length) := by
  have hminSize : minSize + ccsrcs.length * contributingSourceIdLength =
      minSize + 4 * ccsrcs.length := by
    rw [contributingSourceIdLength, Nat.mul_comm]
  simp only [readContributingSourcesFromPacketData, hflags, Except.bind, bind, hcount, hminSize,
    checkOperation, if_pos hsize, readContributingSources_of_drop h, pure, Except.pure]

theorem readExtensionHeaderFromPacketData_of_none {p : RtpPacket} {environment : Environment}
    {data : NSData} {flags : UInt8} {offset minSize : ℕ} (hflags : data.uint8At 0 = .ok flags)
    (hextension : hasBit flags hasExtensionHeaderBitIndex = false)
    (hadjusted : (environment.hasEnabledTestingOrLegacyOption legacyRtpOption &&
      hasBit flags hasPaddingBitIndex) = false) :
    p.readExtensionHeaderFromPacketData environment data offset minSize =
      .ok ({ p with hasExtensionHeader := false }, offset, minSize) := by
  rw [readExtensionHeaderFromPacketData_eq_ok hflags hadjusted, hextension, Bool.or_false,
    if_neg Bool.false_ne_true]
  exact ⟨rfl, rfl, rfl⟩

/-- The extension header stands behind twelve extra bytes, where the option asks for it. -/
theorem readExtensionHeaderFromPacketData_of_drop {p : RtpPacket} {environment : Environment}
    {data extensionData rest : NSData} {identifier : UInt16} {flags : UInt8} {adjusted : Bool}
    {offset minSize : ℕ} (hflags : data.uint8At 0 = .ok flags)
    (hadjusted : (environment.hasEnabledTestingOrLegacyOption legacyRtpOption &&
      hasBit flags hasPaddingBitIndex) = adjusted)
    (hextension : hasBit flags hasExtensionHeaderBitIndex = true ∨ adjusted = true)
    (hlength : extensionData.length < 0x10000)
    (hsize : minSize + 4 + extensionData.length ≤ data.length)
    (h : data.drop (offset + if adjusted then 12 else 0) =
      dataWithBigEndianBytesOfUInt16 identifier ++
        (dataWithBigEndianBytesOfUInt16 (UInt16.ofNat extensionData.length) ++
          (extensionData ++ rest))) :
    p.readExtensionHeaderFromPacketData environment data offset minSize =
      .ok ({ p with
          hasExtensionHeader := true
          wasAdjustedDueToInteropIssues := adjusted || p.wasAdjustedDueToInteropIssues
          extensionHeaderIdentifier := identifier
          extensionHeaderData := some extensionData },
        offset + (if adjusted then 12 else 0) + 4 + extensionData.length,
        minSize + 4 + extensionData.length) := by
  have hidentifier := NSData.bigEndianUInt16At_of_drop h
  have hafter := NSData.drop_of_drop h
  have hextensionLength := NSData.bigEndianUInt16At_of_drop hafter
  have hafter := NSData.drop_of_drop hafter
  have htoNat : (UInt16.ofNat extensionData.length).toNat = extensionData.length :=
    UInt16.toNat_ofNat_of_lt' hlength
  have hend := congrArg List.length h
  simp only [List.length_drop, List.length_append, length_dataWithBigEndianBytesOfUInt16] at hend
  have hextensionData : (data.drop (offset + (if adjusted then 12 else 0) + 4)).take
      extensionData.length = extensionData := by
    rw [show offset + (if adjusted then 12 else 0) + 4 = _ from (Nat.add_assoc _ 2 2).symm]
    exact (congrArg (List.take _) hafter).trans List.take_left
  rw [readExtensionHeaderFromPacketData_eq_ok hflags hadjusted,
    if_pos (Bool.or_eq_true_iff.mpr hextension)]
  refine ⟨identifier, _, hidentifier, hextensionLength, ?_⟩
  rw [htoNat, hextensionData]
  exact ⟨rfl, by omega, rfl, hsize, rfl⟩

/-- The extension header of `p`, or that it has none, is read into `q`. -/
theorem readExtensionHeaderFromPacketData_of_generate {p q : RtpPacket} (hp : p.Valid)
    {environment : Environment} {data rest : NSData} {flags : UInt8} {adjusted : Bool}
    {offset minSize : ℕ} (hflags : data.uint8At 0 = .ok flags)
    (hadjusted : (environment.hasEnabledTestingOrLegacyOption legacyRtpOption &&
      hasBit flags hasPaddingBitIndex) = adjusted)
    (hextension : (hasBit flags hasExtensionHeaderBitIndex || adjusted) = p.hasExtensionHeader)
    (hq : q.wasAdjustedDueToInteropIssues = false ∧ q.extensionHeaderIdentifier = 0 ∧
      q.extensionHeaderData = none)
    (hsize : minSize + p.generateExtensionHeaderData.length ≤ data.length)
    (h : data.drop (offset + if adjusted then 12 else 0) =
      p.generateExtensionHeaderData ++ rest) :
    q.readExtensionHeaderFromPacketData environment data offset minSize =
      .ok ({ q with
          hasExtensionHeader := p.hasExtensionHeader
          wasAdjustedDueToInteropIssues := adjusted
          extensionHeaderIdentifier := p.extensionHeaderIdentifier
          extensionHeaderData := p.extensionHeaderData },
        offset + (if adjusted then 12 else 0) + p.generateExtensionHeaderData.length,
        minSize + p.generateExtensionHeaderData.length) := by
  obtain ⟨hq, hidentifier, hdata⟩ := hq
  cases hhas : p.hasExtensionHeader with
  | false =>
    rw [hhas] at hextension
    obtain ⟨hbit, rfl⟩ : hasBit flags hasExtensionHeaderBitIndex = false ∧ adjusted = false := by
      simpa using hextension
    have hnone : p.extensionHeaderData = none := by
      simpa [hhas] using hp.extensionHeader
    have hempty : p.generateExtensionHeaderData = [] := by
      simp [generateExtensionHeaderData, hhas]
    rw [readExtensionHeaderFromPacketData_of_none hflags hbit hadjusted, hempty,
      hp.noExtensionHeader hhas, hnone]
    cases q
    simp_all
  | true =>
    obtain ⟨extensionData, hsome⟩ : ∃ extensionData, p.extensionHeaderData = some extensionData :=
      Option.isSome_iff_exists.mp (hp.extensionHeader ▸ hhas)
    have hlength := hp.extensionHeaderLength extensionData hsome
    have hgenerate : p.generateExtensionHeaderData =
        dataWithBigEndianBytesOfUInt16 p.extensionHeaderIdentifier ++
          (dataWithBigEndianBytesOfUInt16 (UInt16.ofNat extensionData.length) ++
            extensionData) := by
      simp [generateExtensionHeaderData, hhas, hsome]
    have hgenerateLength : p.generateExtensionHeaderData.length = 4 + extensionData.length := by
      rw [hgenerate]
      simp
      omega
    rw [hgenerate, List.append_assoc, List.append_assoc] at h
    rw [hgenerateLength] at hsize ⊢
    rw [readExtensionHeaderFromPacketData_of_drop hflags hadjusted
      (by simpa [hhas] using hextension) (by simp [maxExtensionHeaderLength] at hlength; omega)
      (by omega) h, hsome, hq, Bool.or_false]
    simp only [Nat.add_assoc]

theorem readPaddingFromPacketData_of_none {p : RtpPacket} {environment : Environment}
    {data : NSData} {flags : UInt8} {adjusted : Bool} {minSize : ℕ}
    (hflags : data.uint8At 0 = .ok flags)
    (hadjusted : (environment.hasEnabledTestingOrLegacyOption legacyRtpOption &&
      hasBit flags hasPaddingBitIndex) = adjusted)
    (hpadding : (hasBit flags hasPaddingBitIndex && !adjusted) = false) :
    p.readPaddingFromPacketData environment data minSize =
      .ok { p with
        wasAdjustedDueToInteropIssues := adjusted || p.wasAdjustedDueToInteropIssues } := by
  rw [readPaddingFromPacketData_eq_ok hflags hadjusted, hpadding, if_neg Bool.false_ne_true]

theorem last_of_drop {p : RtpPacket} (hp : p.padding > 0) {data : NSData} {n : ℕ}
    (h : data.drop n = p.generatePaddingData) : data[data.length - 1]? = some p.padding := by
  have hpos : 0 < p.padding.toNat := UInt8.lt_iff_toNat_lt.mp hp
  have hlength := congrArg List.length h
  rw [List.length_drop, length_generatePaddingData] at hlength
  rw [show data.length - 1 = n + (p.padding.toNat - 1) by omega, ← List.getElem?_drop, h]
  exact List.getElem?_set_self (by rw [List.length_replicate]; omega)

theorem readPaddingFromPacketData_of_last {p : RtpPacket} {environment : Environment}
    {data : NSData} {flags padding : UInt8} {minSize : ℕ} (hflags : data.uint8At 0 = .ok flags)
    (hbit : hasBit flags hasPaddingBitIndex = true)
    (hoption : environment.hasEnabledTestingOrLegacyOption legacyRtpOption = false)
    (hpadding : padding > 0) (hsize : minSize + padding.toNat ≤ data.length)
    (hlast : data[data.length - 1]? = some padding) :
    p.readPaddingFromPacketData environment data minSize = .ok { p with padding } := by
  rw [readPaddingFromPacketData_eq_ok hflags (by rw [hoption, Bool.false_and]), hbit]
  exact ⟨padding, NSData.uint8At_eq_ok.mpr hlast, hpadding, hsize, rfl⟩

/-- The padding of `p`, or that it has none, is read into `q`. -/
theorem readPaddingFromPacketData_of_generate {p q : RtpPacket} {environment : Environment}
    {data : NSData} {flags : UInt8} {adjusted : Bool} {minSize n : ℕ}
    (hflags : data.uint8At 0 = .ok flags)
    (hadjusted : (environment.hasEnabledTestingOrLegacyOption legacyRtpOption &&
      hasBit flags hasPaddingBitIndex) = adjusted)
    (hpadding : (hasBit flags hasPaddingBitIndex && !adjusted) = decide (p.padding > 0))
    (hq : q.padding = 0 ∧ q.wasAdjustedDueToInteropIssues = adjusted)
    (hsize : minSize + p.padding.toNat ≤ data.length) (h : data.drop n = p.generatePaddingData) :
    q.readPaddingFromPacketData environment data minSize =
      .ok { q with padding := p.padding } := by
  by_cases hpos : p.padding > 0
  · rw [decide_eq_true hpos, Bool.and_eq_true, Bool.not_eq_true'] at hpadding
    obtain ⟨hbit, rfl⟩ := hpadding
    rw [hbit, Bool.and_true] at hadjusted
    exact readPaddingFromPacketData_of_last hflags hbit hadjusted hpos hsize (last_of_drop hpos h)
  · have hzero : p.padding = 0 := UInt8.le_zero_iff.mp (UInt8.not_lt.mp hpos)
    rw [readPaddingFromPacketData_of_none hflags hadjusted (hpadding.trans (decide_eq_false hpos)),
      hq.2, Bool.or_self, hzero, ← hq.1, ← hq.2]

theorem length_layout (p : RtpPacket) (flags : UInt8) (gap : NSData) :
    (p.layout flags gap).length = 12 + 4 * p.contributingSourceIdentifiers.length + gap.length +
      p.generateExtensionHeaderData.length + p.payload.length + p.padding.toNat := by
  simp [layout]
  omega

/-- Reading the bytes of a packet, as the factories make it, whose `flags` tell the parser what
the packet has. -/
theorem rtpPacketParsedFromPacketData_layout {environment : Environment} {p : RtpPacket}
    (hp : p.Valid) (hversion : p.version = supportedRtpVersion ∨ p.version = rtpVersionForZrtp)
    {flags : UInt8} {adjusted : Bool} {data : NSData}
    (hdata : data = p.layout flags (if adjusted then List.replicate 12 0 else []))
    (hversionBits : flags >>> versionIndex = p.version)
    (hcount : (lowUInt4OfUint8 flags).toNat = p.contributingSourceIdentifiers.length)
    (hadjusted : (environment.hasEnabledTestingOrLegacyOption legacyRtpOption &&
      hasBit flags hasPaddingBitIndex) = adjusted)
    (hextension : (hasBit flags hasExtensionHeaderBitIndex || adjusted) = p.hasExtensionHeader)
    (hpadding : (hasBit flags hasPaddingBitIndex && !adjusted) = decide (p.padding > 0)) :
    rtpPacketParsedFromPacketData environment data =
      .ok { p with wasAdjustedDueToInteropIssues := adjusted, rawPacketData := some data } := by
  have hgapLength : (if adjusted then List.replicate 12 (0 : UInt8) else []).length =
      if adjusted then 12 else 0 := by
    cases adjusted <;> rfl
  have hlength := p.length_layout flags (if adjusted then List.replicate 12 0 else [])
  rw [← hdata, hgapLength] at hlength
  have hflags : data.uint8At 0 = .ok flags := by rw [hdata]; rfl
  have hmarker : data.uint8At 1 = .ok p.markerByte := by rw [hdata]; rfl
  have hsequence := NSData.drop_of_drop (show data.drop 0 = [flags, p.markerByte] ++ _ from hdata)
  have htime := NSData.drop_of_drop hsequence
  have hsource := NSData.drop_of_drop htime
  have hcsrcs := NSData.drop_of_drop hsource
  have hgap := NSData.drop_of_drop hcsrcs
  have hheader := NSData.drop_of_drop hgap
  have hpayload := NSData.drop_of_drop hheader
  simp only [List.length_cons, List.length_nil, length_dataWithBigEndianBytesOfUInt16,
    length_dataWithBigEndianBytesOfUInt32, length_generateCcrcData, hgapLength, Nat.zero_add,
    Nat.reduceAdd] at hsequence htime hsource hcsrcs hgap hheader hpayload
  have hsources (q : RtpPacket) : q.readContributingSourcesFromPacketData data 12 12 = .ok _ :=
    readContributingSourcesFromPacketData_of_drop hflags hcount (by omega) hcsrcs
  have hextensionHeader (q : RtpPacket) (hq : q.wasAdjustedDueToInteropIssues = false ∧
      q.extensionHeaderIdentifier = 0 ∧ q.extensionHeaderData = none) :=
    readExtensionHeaderFromPacketData_of_generate (q := q) hp hflags hadjusted hextension hq
      (show 12 + 4 * p.contributingSourceIdentifiers.length + _ ≤ data.length by omega) hheader
  have hpaddingData (q : RtpPacket)
      (hq : q.padding = 0 ∧ q.wasAdjustedDueToInteropIssues = adjusted) :=
    readPaddingFromPacketData_of_generate hflags hadjusted hpadding hq
      (show 12 + 4 * p.contributingSourceIdentifiers.length +
        p.generateExtensionHeaderData.length + _ ≤ data.length by omega)
      (NSData.drop_of_drop hpayload)
  have hpayloadData := NSData.subdataWithRange_of_drop hpayload (by omega)
  have hpayloadLength : subtractNSUInteger (subtractNSUInteger data.length p.padding.toNat)
      (12 + 4 * p.contributingSourceIdentifiers.length + (if adjusted then 12 else 0) +
        p.generateExtensionHeaderData.length) = p.payload.length := by
    rw [subtractNSUInteger_of_le (show p.padding.toNat ≤ data.length by omega),
      subtractNSUInteger_of_le (by omega)]
    omega
  simp only [rtpPacketParsedFromPacketData, Throws.bind_eq_ok, checkOperation_eq_ok]
  simp only [minimumRtpHeaderLength]
  refine ⟨⟨⟩, by omega, flags, hflags, ⟨⟩, hversionBits ▸ hversion, _, hmarker, _, hmarker, _,
    hsources _, _, hextensionHeader _ ⟨rfl, rfl, rfl⟩, _, hpaddingData _ ⟨rfl, rfl⟩, p.payload,
    hpayloadLength ▸ hpayloadData, p.sequenceNumber, ?_, p.timeStamp, ?_,
    p.synchronizationSourceIdentifier, ?_, ?_⟩
  · exact NSData.bigEndianUInt16At_of_drop hsequence
  · exact NSData.bigEndianUInt32At_of_drop htime
  · exact NSData.bigEndianUInt32At_of_drop hsource
  · obtain ⟨hmarkerBit, hpayloadType⟩ := readMarkerByte hp.payloadType
    rw [hmarkerBit, hpayloadType, hversionBits]
    rfl

/-! What is accepted is well formed. -/

theorem readContributingSources_sound {data : NSData} {count offset offset' : ℕ}
    {ccsrcs : List UInt32} (h : readContributingSources data count offset = .ok (ccsrcs, offset')) :
    ccsrcs.length = count ∧ offset' = offset + 4 * count := by
  induction count generalizing offset ccsrcs with
  | zero =>
    obtain ⟨rfl, rfl⟩ := Prod.mk.inj (Except.ok.inj h)
    exact ⟨rfl, rfl⟩
  | succ count ih =>
    simp only [readContributingSources, Throws.bind_eq_ok] at h
    obtain ⟨ccsrc, -, ⟨ccsrcs', offset''⟩, hrest, h⟩ := h
    obtain ⟨rfl, rfl⟩ := Prod.mk.inj (Except.ok.inj h)
    obtain ⟨hlength, rfl⟩ := ih hrest
    exact ⟨congrArg Nat.succ hlength, by simp only [contributingSourceIdLength]; omega⟩

theorem readContributingSourcesFromPacketData_sound {p q : RtpPacket} {data : NSData}
    {offset minSize offset' minSize' : ℕ}
    (h : p.readContributingSourcesFromPacketData data offset minSize =
      .ok (q, offset', minSize')) :
    ∃ ccsrcs, q = { p with contributingSourceIdentifiers := ccsrcs } ∧ ccsrcs.length < 0x10 ∧
      offset' = offset + 4 * ccsrcs.length ∧ minSize' = minSize + 4 * ccsrcs.length ∧
      minSize' ≤ data.length := by
  simp only [readContributingSourcesFromPacketData, Throws.bind_eq_ok, checkOperation_eq_ok,
    Throws.pure_eq_ok, Prod.mk.injEq] at h
  obtain ⟨flags, -, -, hsize, ⟨ccsrcs, offset''⟩, hread, rfl, rfl, rfl⟩ := h
  obtain ⟨hlength, rfl⟩ := readContributingSources_sound hread
  have hcount : (lowUInt4OfUint8 flags).toNat ≤ 15 := Nat.and_le_right
  refine ⟨ccsrcs, rfl, ?_, ?_, ?_, hsize⟩ <;>
    simp only [hlength, contributingSourceIdLength] <;> omega

/-- The size of an extension header with its identifier and its length. -/
def lengthOfExtensionHeader : Option NSData → ℕ
  | none => 0
  | some extensionHeaderData => 4 + extensionHeaderData.length

/-- Without the option, nothing is skipped. -/
theorem readExtensionHeaderFromPacketData_sound {p q : RtpPacket} {environment : Environment}
    {data : NSData} {offset minSize offset' minSize' : ℕ}
    (hoption : environment.hasEnabledTestingOrLegacyOption legacyRtpOption = false)
    (h : p.readExtensionHeaderFromPacketData environment data offset minSize =
      .ok (q, offset', minSize'))
    (hp : p.extensionHeaderIdentifier = 0 ∧ p.extensionHeaderData = none)
    (hsize : minSize ≤ data.length) :
    ∃ hasExtensionHeader extensionHeaderIdentifier extensionHeaderData,
      q = { p with hasExtensionHeader, extensionHeaderIdentifier, extensionHeaderData } ∧
      (hasExtensionHeader = extensionHeaderData.isSome ∧
        (∀ data ∈ extensionHeaderData, data.length ≤ maxExtensionHeaderLength) ∧
        (hasExtensionHeader = false → extensionHeaderIdentifier = 0)) ∧
      offset' = offset + lengthOfExtensionHeader extensionHeaderData ∧
      minSize' = minSize + lengthOfExtensionHeader extensionHeaderData ∧
      minSize' ≤ data.length := by
  obtain ⟨flags, hflags, -⟩ := Throws.bind_eq_ok.mp h
  rw [readExtensionHeaderFromPacketData_eq_ok hflags (by rw [hoption, Bool.false_and]),
    Bool.or_false] at h
  split at h
  case isTrue =>
    obtain ⟨identifier, length, -, -, rfl, hrange, rfl, hend, rfl⟩ := h
    have hlength : ((data.drop (offset + 0 + 4)).take length.toNat).length = length.toNat := by
      rw [List.length_take, List.length_drop]
      simp only [Bool.false_eq_true, if_false] at hrange
      omega
    have hlt := length.toNat_lt
    refine ⟨true, identifier, some ((data.drop (offset + 0 + 4)).take length.toNat), rfl,
      ⟨rfl, ?_, by simp⟩, ?_, ?_, hend⟩
    · rintro _ ⟨⟩
      rw [hlength, maxExtensionHeaderLength]
      omega
    · rw [lengthOfExtensionHeader, hlength]
      exact Nat.add_assoc _ _ _
    · rw [lengthOfExtensionHeader, hlength]
      exact Nat.add_assoc _ _ _
  case isFalse =>
    obtain ⟨rfl, rfl, rfl⟩ := h
    exact ⟨false, 0, none, by rw [← hp.1, ← hp.2], ⟨rfl, by simp, fun _ => rfl⟩, rfl, rfl, hsize⟩

theorem readPaddingFromPacketData_sound {p q : RtpPacket} {environment : Environment}
    {data : NSData} {minSize : ℕ}
    (hoption : environment.hasEnabledTestingOrLegacyOption legacyRtpOption = false)
    (h : p.readPaddingFromPacketData environment data minSize = .ok q)
    (hp : p.padding = 0) (hsize : minSize ≤ data.length) :
    ∃ padding, q = { p with padding } ∧ minSize + padding.toNat ≤ data.length := by
  obtain ⟨flags, hflags, -⟩ := Throws.bind_eq_ok.mp h
  rw [readPaddingFromPacketData_eq_ok hflags (by rw [hoption, Bool.false_and])] at h
  split at h
  case isTrue =>
    obtain ⟨padding, -, -, hpadding, rfl⟩ := h
    exact ⟨padding, rfl, hpadding⟩
  case isFalse =>
    obtain rfl := h
    exact ⟨0, by rw [← hp, Bool.false_or], hsize⟩

/-- The size of the parts of the packet. -/
def serializedLength (p : RtpPacket) : ℕ :=
  12 + 4 * p.contributingSourceIdentifiers.length + lengthOfExtensionHeader p.extensionHeaderData +
    p.payload.length + p.padding.toNat

theorem Valid.length_generateExtensionHeaderData {p : RtpPacket} (hp : p.Valid) :
    p.generateExtensionHeaderData.length = lengthOfExtensionHeader p.extensionHeaderData := by
  have hextension := hp.extensionHeader
  unfold generateExtensionHeaderData
  cases hdata : p.extensionHeaderData with
  | none => simp [hextension, hdata, lengthOfExtensionHeader]
  | some data =>
    simp [hextension, hdata, lengthOfExtensionHeader]
    omega

theorem Valid.length_layout {p : RtpPacket} (hp : p.Valid) (flags : UInt8) :
    (p.layout flags []).length = p.serializedLength := by
  rw [RtpPacket.length_layout, hp.length_generateExtensionHeaderData, serializedLength]
  rfl

theorem rtpPacketParsedFromPacketData_sound {environment : Environment} {data : NSData}
    {p : RtpPacket} (hoption : environment.hasEnabledTestingOrLegacyOption legacyRtpOption = false)
    (h : rtpPacketParsedFromPacketData environment data = .ok p) :
    p.Valid ∧ (p.version = supportedRtpVersion ∨ p.version = rtpVersionForZrtp) ∧
      p.rawPacketData = some data ∧ data.length = p.serializedLength := by
  simp only [rtpPacketParsedFromPacketData, Throws.bind_eq_ok, checkOperation_eq_ok,
    Throws.pure_eq_ok] at h
  obtain ⟨-, hlength, flags, -, -, hversion, marker, -, marker', -, ⟨q₁, offset₁, minSize₁⟩, hread₁,
    ⟨q₂, offset₂, minSize₂⟩, hread₂, q₃, hread₃, payload, hpayload, sequenceNumber, -, timeStamp, -,
    source, -, rfl⟩ := h
  obtain ⟨ccsrcs, rfl, hcount, rfl, rfl, hsize₁⟩ :=
    readContributingSourcesFromPacketData_sound hread₁
  obtain ⟨hasExtensionHeader, identifier, extensionData, rfl, ⟨hextension, hextensionLength,
    hidentifier⟩, rfl, rfl, hsize₂⟩ :=
      readExtensionHeaderFromPacketData_sound hoption hread₂ ⟨rfl, rfl⟩ hsize₁
  obtain ⟨padding, rfl, hsize₃⟩ := readPaddingFromPacketData_sound hoption hread₃ rfl hsize₂
  rw [NSData.subdataWithRange_eq_ok] at hpayload
  obtain ⟨hrange, rfl⟩ := hpayload
  refine ⟨⟨?_, ?_, hcount, hextension, hextensionLength, hidentifier, rfl⟩, hversion, rfl, ?_⟩
  · rcases hversion with h | h <;> simp only [h] <;> rfl
  · show (marker' &&& payloadTypeMask) &&& 0x80 = 0
    rw [UInt8.and_assoc]
    exact UInt8.and_zero
  · dsimp only at hsize₃
    have hpayloadLength : subtractNSUInteger (subtractNSUInteger data.length padding.toNat)
        (minimumRtpHeaderLength + 4 * ccsrcs.length + lengthOfExtensionHeader extensionData) =
        data.length - padding.toNat - (12 + 4 * ccsrcs.length +
          lengthOfExtensionHeader extensionData) := by
      rw [subtractNSUInteger_of_le (show padding.toNat ≤ data.length by omega),
        subtractNSUInteger_of_le (by omega)]
      rfl
    simp only [minimumRtpHeaderLength] at hsize₃ hpayloadLength
    simp only [serializedLength, List.length_take, List.length_drop, minimumRtpHeaderLength,
      hpayloadLength]
    omega

theorem Valid.flags {p : RtpPacket} (hp : p.Valid) :
    p.flagsByte >>> versionIndex = p.version ∧
      hasBit p.flagsByte hasPaddingBitIndex = decide (p.padding > 0) ∧
      hasBit p.flagsByte hasExtensionHeaderBitIndex = p.hasExtensionHeader ∧
      (lowUInt4OfUint8 p.flagsByte).toNat = p.contributingSourceIdentifiers.length := by
  apply readFlags p.version (version_lt hp.version) _ _ _ hp.contributingSources
  simp only [flagsByte, decide_eq_true_eq]

theorem Valid.roundTrip {p : RtpPacket} (hp : p.Valid) {environment : Environment}
    (hoption : environment.hasEnabledTestingOrLegacyOption legacyRtpOption = false)
    (hversion : p.version = supportedRtpVersion ∨ p.version = rtpVersionForZrtp)
    (interopOptions : List TestingOrLegacyOption) :
    ∃ data, p.generateSerializedPacketData environment interopOptions = .ok data ∧
      data.length = p.serializedLength ∧
      rtpPacketParsedFromPacketData environment data =
        .ok { p with rawPacketData := some data } := by
  obtain ⟨hversionBits, hpadding, hextension, hcount⟩ := hp.flags
  refine ⟨p.layout p.flagsByte [], ?_, hp.length_layout _, ?_⟩
  · rw [hp.generateSerializedPacketData, hoption]
    rfl
  · have hlayout : p.layout p.flagsByte [] =
        p.layout p.flagsByte (if false then List.replicate 12 0 else []) := rfl
    rw [rtpPacketParsedFromPacketData_layout hp hversion hlayout hversionBits hcount
      (by rw [hoption, Bool.false_and]) (by rw [hextension, Bool.or_false])
      (by rw [hpadding, Bool.not_false, Bool.and_true]), hp.notAdjusted]

/-- Without the legacy option, a packet of a version that is supported is read back as it was
made, and the fields of a packet that was read give bytes of the same size, that read the same. -/
theorem serialization_roundTrip (environment : Environment)
    (hoption : environment.hasEnabledTestingOrLegacyOption legacyRtpOption = false) :
    (∀ (fields p : RtpPacket) (interopOptions : List TestingOrLegacyOption),
      rtpPacketWithVersion fields = .ok p →
      p.version = supportedRtpVersion ∨ p.version = rtpVersionForZrtp →
      ∃ data, p.rawPacketDataUsingInteropOptions environment interopOptions = .ok data ∧
        rtpPacketParsedFromPacketData environment data =
          .ok { p with rawPacketData := some data }) ∧
    ∀ (data : NSData) (p : RtpPacket) (interopOptions : List TestingOrLegacyOption),
      rtpPacketParsedFromPacketData environment data = .ok p →
      ∃ anew, p.generateSerializedPacketData environment interopOptions = .ok anew ∧
        anew.length = data.length ∧
        rtpPacketParsedFromPacketData environment anew =
          .ok { p with rawPacketData := some anew } := by
  constructor
  · intro fields p interopOptions hfields hversion
    obtain ⟨hp, hraw⟩ := valid_of_rtpPacketWithVersion hfields
    obtain ⟨data, hdata, -, hparsed⟩ := hp.roundTrip hoption hversion interopOptions
    refine ⟨data, ?_, hparsed⟩
    rw [rawPacketDataUsingInteropOptions, hraw]
    exact hdata
  · intro data p interopOptions hparsed
    obtain ⟨hp, hversion, -, hlength⟩ := rtpPacketParsedFromPacketData_sound hoption hparsed
    obtain ⟨anew, hanew, hanewLength, hanewParsed⟩ := hp.roundTrip hoption hversion interopOptions
    exact ⟨anew, hanew, hanewLength.trans hlength.symm, hanewParsed⟩

/-- A packet with everything that a packet can have. -/
def fullPacket : RtpPacket where
  version := 2
  padding := 3
  hasExtensionHeader := true
  contributingSourceIdentifiers := [0x01020304]
  isMarkerBitSet := true
  payloadType := 77
  sequenceNumber := 5
  timeStamp := 6
  synchronizationSourceIdentifier := 7
  extensionHeaderIdentifier := 8
  extensionHeaderData := some [9, 10]
  payload := [11]
  wasAdjustedDueToInteropIssues := false
  rawPacketData := none

theorem serialization_roundTrip_fullPacket : ∃ data,
    fullPacket.rawPacketDataUsingInteropOptions ⟨[], [], [], []⟩ [] = .ok data ∧
      rtpPacketParsedFromPacketData ⟨[], [], [], []⟩ data =
        .ok { fullPacket with rawPacketData := some data } :=
  (serialization_roundTrip ⟨[], [], [], []⟩ (by decide)).1 fullPacket fullPacket []
    rfl (by decide)

end RtpPacket
end SignalIOS.Rtp
