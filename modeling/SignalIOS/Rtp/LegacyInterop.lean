import SignalIOS.Rtp.RoundTrip

/-! Packets from and for the android version, whose extension header stands behind twelve bytes
that should not be there, and whose padding bit says so. -/
namespace SignalIOS.Rtp.RtpPacket

/-- The bytes of the packet `p` with twelve zero bytes behind its contributing sources. -/
def withTwelveZeroBytes (p : RtpPacket) (plain : NSData) : NSData :=
  List.take (12 + 4 * p.contributingSourceIdentifiers.length) plain ++
    (List.replicate 12 0 ++ plain.drop (12 + 4 * p.contributingSourceIdentifiers.length))

/-- The flags with the padding bit set, and with the extension bit as given. -/
def legacyFlags (extensionBit : Bool) (flags : UInt8) : UInt8 :=
  (if extensionBit then flags ||| 0x10 else flags &&& 0xEF) ||| 0x20

def withLegacyFlags (extensionBit : Bool) : NSData → NSData
  | [] => []
  | flags :: rest => legacyFlags extensionBit flags :: rest

/-- What the android version sends for the packet `p`. -/
def legacyBytes (p : RtpPacket) (extensionBit : Bool) (plain : NSData) : NSData :=
  withLegacyFlags extensionBit (p.withTwelveZeroBytes plain)

theorem withTwelveZeroBytes_layout (p : RtpPacket) (flags : UInt8) :
    p.withTwelveZeroBytes (p.layout flags []) = p.layout flags (List.replicate 12 0) := by
  let header := [flags, p.markerByte] ++ (dataWithBigEndianBytesOfUInt16 p.sequenceNumber ++
    (dataWithBigEndianBytesOfUInt32 p.timeStamp ++
    (dataWithBigEndianBytesOfUInt32 p.synchronizationSourceIdentifier ++ p.generateCcrcData)))
  have hheader : header.length = 12 + 4 * p.contributingSourceIdentifiers.length := by
    simp [header]
    omega
  have hlayout (gap : NSData) : p.layout flags gap = header ++ (gap ++
      (p.generateExtensionHeaderData ++ (p.payload ++ p.generatePaddingData))) := by
    simp only [layout, header, List.append_assoc]
  rw [withTwelveZeroBytes, hlayout, hlayout, ← hheader, List.take_left, List.drop_left,
    List.nil_append]

theorem legacyBytes_layout (p : RtpPacket) (extensionBit : Bool) (flags : UInt8) :
    p.legacyBytes extensionBit (p.layout flags []) =
      p.layout (legacyFlags extensionBit flags) (List.replicate 12 0) := by
  rw [legacyBytes, withTwelveZeroBytes_layout]
  rfl

theorem readLegacyFlags {p : RtpPacket} (hp : p.Valid) (hpadding : p.padding = 0)
    (extensionBit : Bool) :
    let flags := legacyFlags extensionBit p.flagsByte
    flags >>> versionIndex = p.version ∧ hasBit flags hasPaddingBitIndex = true ∧
      hasBit flags hasExtensionHeaderBitIndex = extensionBit ∧
      (lowUInt4OfUint8 flags).toNat = p.contributingSourceIdentifiers.length := by
  let bits (v : UInt8) (padding extension : Bool) (c : ℕ) : UInt8 :=
    v <<< versionIndex ||| (if padding then 1 <<< hasPaddingBitIndex else 0) |||
      (if extension then 1 <<< hasExtensionHeaderBitIndex else 0) ||| UInt8.ofNat c
  have hall : ∀ (v : Fin 4) (extension extensionBit : Bool) (c : Fin 16),
      legacyFlags extensionBit (bits (UInt8.ofNat v) false extension c) =
        bits (UInt8.ofNat v) true extensionBit c := by
    decide
  have h := hall ⟨p.version.toNat, UInt8.lt_iff_toNat_lt.mp (version_lt hp.version)⟩
    p.hasExtensionHeader extensionBit ⟨_, hp.contributingSources⟩
  rw [UInt8.ofNat_toNat] at h
  refine readFlags p.version (version_lt hp.version) true extensionBit _ hp.contributingSources _ ?_
  rw [flagsByte, hpadding]
  exact h

/-- The parser reads the packet `p` from what the android version sends for it, and takes note
that it had to. -/
def ReadsLegacyBytes (environment : Environment) (p : RtpPacket) : Prop :=
  ∀ plain, p.generateSerializedPacketData environment [] = .ok plain → ∀ extensionBit,
    rtpPacketParsedFromPacketData environment (p.legacyBytes extensionBit plain) =
      .ok { p with
        wasAdjustedDueToInteropIssues := true
        rawPacketData := some (p.legacyBytes extensionBit plain) }

theorem Valid.readsLegacyBytes {p : RtpPacket} (hp : p.Valid) {environment : Environment}
    (hoption : environment.hasEnabledTestingOrLegacyOption legacyRtpOption = true)
    (hversion : p.version = supportedRtpVersion ∨ p.version = rtpVersionForZrtp)
    (hpadding : p.padding = 0) (hextension : p.hasExtensionHeader = true) :
    ReadsLegacyBytes environment p := by
  intro plain hplain extensionBit
  obtain ⟨hversionBits, hbit, -, hcount⟩ := readLegacyFlags hp hpadding extensionBit
  rw [hp.generateSerializedPacketData, Except.ok.injEq] at hplain
  obtain rfl : p.layout p.flagsByte [] = plain := by simpa using hplain
  have hlayout : p.legacyBytes extensionBit (p.layout p.flagsByte []) =
      p.layout (legacyFlags extensionBit p.flagsByte)
        (if true then List.replicate 12 0 else []) :=
    legacyBytes_layout p extensionBit p.flagsByte
  exact rtpPacketParsedFromPacketData_layout hp hversion hlayout hversionBits hcount
    (by rw [hoption, hbit, Bool.and_true]) (by rw [Bool.or_true, hextension])
    (by rw [hpadding, Bool.not_true, Bool.and_false]; rfl)

theorem Valid.writesLegacyBytes {p : RtpPacket} (hp : p.Valid) {environment : Environment}
    (hoption : environment.hasEnabledTestingOrLegacyOption legacyRtpOption = true)
    {interopOptions : List TestingOrLegacyOption} (hinterop : legacyRtpOption ∈ interopOptions) :
    ∃ plain, p.generateSerializedPacketData environment [] = .ok plain ∧
      p.generateSerializedPacketData environment interopOptions =
        .ok (if p.hasExtensionHeader then p.withTwelveZeroBytes plain else plain) := by
  refine ⟨p.layout p.flagsByte [], ?_, ?_⟩
  · rw [hp.generateSerializedPacketData]
    simp
  · rw [hp.generateSerializedPacketData, hoption, List.contains_iff_mem.mpr hinterop,
      withTwelveZeroBytes_layout]
    cases p.hasExtensionHeader <;> rfl

/-- The option matters only to packets with the padding bit. -/
theorem rtpPacketParsedFromPacketData_congr {environment environment' : Environment}
    {data : NSData}
    (hpadding : ∀ flags, data.uint8At 0 = .ok flags → hasBit flags hasPaddingBitIndex = false) :
    rtpPacketParsedFromPacketData environment data =
      rtpPacketParsedFromPacketData environment' data := by
  have hextension (p : RtpPacket) (offset minSize : ℕ) :
      p.readExtensionHeaderFromPacketData environment data offset minSize =
        p.readExtensionHeaderFromPacketData environment' data offset minSize := by
    unfold readExtensionHeaderFromPacketData
    cases hflags : data.uint8At 0 with
    | error e => rfl
    | ok flags => simp only [bind, Except.bind, hpadding flags hflags, Bool.and_false]
  have hpaddingData (p : RtpPacket) (minSize : ℕ) :
      p.readPaddingFromPacketData environment data minSize =
        p.readPaddingFromPacketData environment' data minSize := by
    unfold readPaddingFromPacketData
    cases hflags : data.uint8At 0 with
    | error e => rfl
    | ok flags =>
      simp only [bind, Except.bind, hpadding flags hflags, Bool.false_eq_true, if_false]
  simp only [rtpPacketParsedFromPacketData, hextension, hpaddingData]

/-- With the legacy option, unpadded packets of a version that is supported are read from what the
android version sends for them. Packets are written as plain, but for the twelve zero bytes in
front of an extension header. What has no padding bit is read as without the option. -/
theorem legacyInterop (environment : Environment)
    (hoption : environment.hasEnabledTestingOrLegacyOption legacyRtpOption = true) :
    (∀ fields p : RtpPacket, rtpPacketWithVersion fields = .ok p →
      p.version = supportedRtpVersion ∨ p.version = rtpVersionForZrtp → p.padding = 0 →
      p.hasExtensionHeader = true → ReadsLegacyBytes environment p) ∧
    (∀ (fields p : RtpPacket) (interopOptions : List TestingOrLegacyOption),
      rtpPacketWithVersion fields = .ok p → legacyRtpOption ∈ interopOptions →
      ∃ plain, p.rawPacketDataUsingInteropOptions environment [] = .ok plain ∧
        p.rawPacketDataUsingInteropOptions environment interopOptions =
          .ok (if p.hasExtensionHeader then p.withTwelveZeroBytes plain else plain)) ∧
    ∀ (without : Environment) (data : NSData),
      without.hasEnabledTestingOrLegacyOption legacyRtpOption = false →
      (∀ flags, data.uint8At 0 = .ok flags → hasBit flags hasPaddingBitIndex = false) →
      rtpPacketParsedFromPacketData environment data =
        rtpPacketParsedFromPacketData without data := by
  refine ⟨?_, ?_, ?_⟩
  · intro fields p hfields hversion hpadding hextension
    obtain ⟨hp, -⟩ := valid_of_rtpPacketWithVersion hfields
    exact hp.readsLegacyBytes hoption hversion hpadding hextension
  · intro fields p interopOptions hfields hinterop
    obtain ⟨hp, hraw⟩ := valid_of_rtpPacketWithVersion hfields
    simp only [rawPacketDataUsingInteropOptions, hraw]
    exact hp.writesLegacyBytes hoption hinterop
  · intro without data _ hpadding
    exact rtpPacketParsedFromPacketData_congr hpadding

/-- A packet with an extension header, of a version that the parser does not support. -/
def versionOnePacket : RtpPacket :=
  { fullPacket with version := 1, padding := 0 }

theorem legacyInterop_fullPacket :
    ReadsLegacyBytes ⟨[], [], [], [legacyRtpOption]⟩ { fullPacket with padding := 0 } :=
  (legacyInterop ⟨[], [], [], [legacyRtpOption]⟩ (by decide)).1 { fullPacket with padding := 0 }
    { fullPacket with padding := 0 } rfl (by decide) rfl rfl

/-- The factories make packets of versions that the parser does not support. -/
theorem not_readsLegacyBytes :
    ¬ ∀ (environment : Environment) (fields p : RtpPacket),
      environment.hasEnabledTestingOrLegacyOption legacyRtpOption = true →
      rtpPacketWithVersion fields = .ok p → p.padding = 0 → p.hasExtensionHeader = true →
      ReadsLegacyBytes environment p := by
  intro h
  have hread := h ⟨[], [], [], [legacyRtpOption]⟩ versionOnePacket versionOnePacket (by decide) rfl
    rfl rfl _ rfl true
  have hraised : rtpPacketParsedFromPacketData ⟨[], [], [], [legacyRtpOption]⟩
      (versionOnePacket.legacyBytes true (versionOnePacket.layout versionOnePacket.flagsByte [])) =
        .error (.operationFailed none) := rfl
  cases hraised.symm.trans hread

end SignalIOS.Rtp.RtpPacket
