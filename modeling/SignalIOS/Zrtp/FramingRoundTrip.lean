import SignalIOS.Rtp.RoundTrip
import SignalIOS.Zrtp.HandshakeFraming

/-! Handshake packets that are sent in RTP packets, and their checks on the other side. -/
namespace SignalIOS.Zrtp
open SignalIOS.Rtp

namespace HandshakePacket

/-- The packet of `p`, sent without interop options and received in another environment. -/
def transported (p : HandshakePacket) (sender receiver : Environment) (sequenceNumber : UInt16) :
    Throws HandshakePacket := do
  let embedded ← p.embeddedIntoRtpPacketWithSequenceNumber sender sequenceNumber []
  let packetData ← embedded.rawPacketDataUsingInteropOptions sender []
  let received ← RtpPacket.rtpPacketParsedFromPacketData receiver packetData
  handshakePacketParsedFromRtpPacket receiver received

/-- The bytes of the RTP packet up to the CRC. -/
def bytesUpToCrc (sequenceNumber : UInt16) (extensionPayload : NSData) : NSData :=
  [0x10, 0] ++ dataWithBigEndianBytesOfUInt16 sequenceNumber ++
    dataWithBigEndianBytesOfUInt32 handshakePacketTimestampCookie ++
    dataWithBigEndianBytesOfUInt32 0 ++
    dataWithBigEndianBytesOfUInt16 handshakePacketExtensionIdentifier ++
    dataWithBigEndianBytesOfUInt16 (UInt16.ofNat (extensionPayload.length + handshakeCrcLength)) ++
    extensionPayload

section
variable {sequenceNumber : UInt16} {extensionPayload : NSData}

theorem rtpPacketFields_valid (sequenceNumber : UInt16) {extensionData : NSData}
    (hfits : extensionData.length < 0x10000) :
    (rtpPacketFields sequenceNumber extensionData).Valid where
  version := (by decide : (0 : UInt8) &&& 0xFC = 0)
  payloadType := (by decide : (0 : UInt8) &&& 0x80 = 0)
  contributingSources := (by decide : 0 < 0x10)
  extensionHeader := rfl
  extensionHeaderLength := by
    intro data hdata
    obtain rfl := Option.some.inj hdata
    exact Nat.le_sub_one_of_lt hfits
  noExtensionHeader := by
    intro h
    cases h
  notAdjusted := rfl

theorem rtpPacketWithVersion_fields {extensionData : NSData}
    (hfits : extensionData.length < 0x10000) :
    RtpPacket.rtpPacketWithVersion (rtpPacketFields sequenceNumber extensionData) =
      .ok (rtpPacketFields sequenceNumber extensionData) := by
  have hvalid := rtpPacketFields_valid sequenceNumber hfits
  simp only [RtpPacket.rtpPacketWithVersion, owsRequire, if_pos hvalid.version,
    if_pos hvalid.payloadType, if_pos hvalid.contributingSources, bind, Except.bind]
  simp only [rtpPacketFields, if_true, owsRequireNotNil, if_pos hfits]
  rfl

theorem flagsByte_fields (extensionData : NSData) :
    (rtpPacketFields sequenceNumber extensionData).flagsByte = 0x10 :=
  (by decide : (0 : UInt8) <<< versionIndex ||| 0 ||| (1 : UInt8) <<< hasExtensionHeaderBitIndex |||
    UInt8.ofNat 0 = 0x10)

theorem layout_fields (crc : UInt32) :
    (rtpPacketFields sequenceNumber
      (extensionPayload ++ dataWithBigEndianBytesOfUInt32 crc)).layout 0x10 [] =
        bytesUpToCrc sequenceNumber extensionPayload ++ dataWithBigEndianBytesOfUInt32 crc := by
  have hheader : (rtpPacketFields sequenceNumber
      (extensionPayload ++ dataWithBigEndianBytesOfUInt32 crc)).generateExtensionHeaderData =
        dataWithBigEndianBytesOfUInt16 handshakePacketExtensionIdentifier ++
          dataWithBigEndianBytesOfUInt16 (UInt16.ofNat
            (extensionPayload.length + handshakeCrcLength)) ++
          (extensionPayload ++ dataWithBigEndianBytesOfUInt32 crc) := by
    simp only [RtpPacket.generateExtensionHeaderData, rtpPacketFields, if_true,
      Option.getD_some, List.length_append]
    rfl
  have hrest : (rtpPacketFields sequenceNumber
      (extensionPayload ++ dataWithBigEndianBytesOfUInt32 crc)).payload ++
        (rtpPacketFields sequenceNumber
          (extensionPayload ++ dataWithBigEndianBytesOfUInt32 crc)).generatePaddingData = [] := rfl
  have hmarker : (rtpPacketFields sequenceNumber
      (extensionPayload ++ dataWithBigEndianBytesOfUInt32 crc)).markerByte = 0 :=
    (by decide : (0 : UInt8) ||| 0 = 0)
  rw [RtpPacket.layout, hheader, hrest, hmarker, List.append_nil, bytesUpToCrc]
  simp only [List.append_assoc]
  rfl

/-- The CRC does not matter for the bytes in front of it. -/
theorem rawPacketData_fields {crc : UInt32}
    (hfits : extensionPayload.length + handshakeCrcLength < 0x10000) (environment : Environment) :
    (rtpPacketFields sequenceNumber (extensionPayload ++ dataWithBigEndianBytesOfUInt32 crc)
      ).rawPacketDataUsingInteropOptions environment [] =
        .ok (bytesUpToCrc sequenceNumber extensionPayload ++
          dataWithBigEndianBytesOfUInt32 crc) := by
  have hlength : (extensionPayload ++ dataWithBigEndianBytesOfUInt32 crc).length < 0x10000 := by
    rw [List.length_append]
    exact hfits
  have hvalid := rtpPacketFields_valid sequenceNumber hlength
  rw [hvalid.rawPacketDataUsingInteropOptions_eq rfl, flagsByte_fields, layout_fields]

theorem skipLast_crc (data : NSData) (crc : UInt32) :
    (data ++ dataWithBigEndianBytesOfUInt32 crc).skipLast 4 = .ok data := by
  rw [NSData.skipLast_eq_ok, List.length_append, length_dataWithBigEndianBytesOfUInt32]
  constructor
  · omega
  · rw [Nat.add_sub_cancel, List.take_left]

theorem parsed_fields {crc : UInt32}
    (hfits : extensionPayload.length + handshakeCrcLength < 0x10000) (environment : Environment) :
    RtpPacket.rtpPacketParsedFromPacketData environment
        (bytesUpToCrc sequenceNumber extensionPayload ++ dataWithBigEndianBytesOfUInt32 crc) =
      .ok { rtpPacketFields sequenceNumber
          (extensionPayload ++ dataWithBigEndianBytesOfUInt32 crc) with
        rawPacketData := some (bytesUpToCrc sequenceNumber extensionPayload ++
          dataWithBigEndianBytesOfUInt32 crc) } := by
  have hlength : (extensionPayload ++ dataWithBigEndianBytesOfUInt32 crc).length < 0x10000 := by
    rw [List.length_append]
    exact hfits
  have hvalid := rtpPacketFields_valid sequenceNumber hlength
  obtain ⟨hversionBits, hpadding, hextension, hcount⟩ := hvalid.flags
  rw [flagsByte_fields] at hversionBits hpadding hextension hcount
  have hadjusted : (environment.hasEnabledTestingOrLegacyOption legacyRtpOption &&
      hasBit 0x10 hasPaddingBitIndex) = false := by
    have hnone : hasBit 0x10 hasPaddingBitIndex = false := by decide
    rw [hnone, Bool.and_false]
  exact RtpPacket.rtpPacketParsedFromPacketData_layout hvalid (.inr rfl) (layout_fields crc).symm
    hversionBits hcount hadjusted (by rw [hextension, hvalid.notAdjusted, Bool.or_false])
    (by rw [hpadding, hvalid.notAdjusted, Bool.not_false, Bool.and_true])

end

/-- What is read from the extension header. -/
theorem read_extensionData {typeId payload : NSData} {crc : UInt32} {extensionData : NSData}
    (htypeId : typeId.length = handshakeTypeIdLength)
    (hdata : extensionData = typeId ++ payload ++ dataWithBigEndianBytesOfUInt32 crc) :
    extensionData.length ≥ headerFooterLengthWithoutHmac ∧
      extensionData.take handshakeTypeIdLength = .ok typeId ∧
      (extensionData.skip handshakeTypeIdLength >>= (·.skipLast handshakeCrcLength)) =
        .ok payload ∧
      (extensionData.takeLast handshakeCrcLength >>= (·.bigEndianUInt32At 0)) = .ok crc := by
  have hlength : extensionData.length = handshakeTypeIdLength + payload.length +
      handshakeCrcLength := by
    rw [hdata, List.length_append, List.length_append, htypeId]
    rfl
  have hbehind : extensionData = typeId ++ (payload ++ dataWithBigEndianBytesOfUInt32 crc) := by
    rw [hdata, List.append_assoc]
  refine ⟨?_, ?_, ?_, ?_⟩
  · rw [hlength, headerFooterLengthWithoutHmac]
    omega
  · rw [NSData.take_eq_ok, hlength, hbehind]
    exact ⟨by omega, (List.take_left' htypeId).symm⟩
  · rw [Throws.bind_eq_ok]
    refine ⟨payload ++ dataWithBigEndianBytesOfUInt32 crc, ?_, skipLast_crc payload crc⟩
    rw [NSData.skip_eq_ok, hlength, hbehind]
    exact ⟨by omega, (List.drop_left' htypeId).symm⟩
  · rw [Throws.bind_eq_ok]
    have hcrc : (dataWithBigEndianBytesOfUInt32 crc).drop 0 =
        dataWithBigEndianBytesOfUInt32 crc ++ [] := (List.append_nil _).symm
    refine ⟨dataWithBigEndianBytesOfUInt32 crc, ?_, NSData.bigEndianUInt32At_of_drop hcrc⟩
    have hfront : (typeId ++ payload).length = extensionData.length - handshakeCrcLength := by
      rw [hlength, List.length_append, htypeId, Nat.add_sub_cancel]
    rw [NSData.takeLast_eq_ok]
    constructor
    · omega
    · rw [← hfront, hdata, List.drop_left]

/-- The packet is found in the extension header, if the CRC is right. -/
theorem parsed_of_extensionData {p : HandshakePacket} {rtpPacket : RtpPacket} {crc : UInt32}
    {upToCrc : NSData} (htypeId : p.typeId.length = handshakeTypeIdLength)
    (htimeStamp : rtpPacket.timeStamp = handshakePacketTimestampCookie)
    (hversion : rtpPacket.version = 0) (hextension : rtpPacket.hasExtensionHeader = true)
    (hidentifier : rtpPacket.extensionHeaderIdentifier = handshakePacketExtensionIdentifier)
    (hdata : rtpPacket.extensionHeaderData =
      some (p.typeId ++ p.payload ++ dataWithBigEndianBytesOfUInt32 crc))
    (hraw : rtpPacket.rawPacketData = some (upToCrc ++ dataWithBigEndianBytesOfUInt32 crc))
    (environment : Environment) (hcrc : crc = upToCrc.crc32) :
    handshakePacketParsedFromRtpPacket environment rtpPacket = .ok p := by
  have hheader : extensionHeaderDataOf rtpPacket =
      p.typeId ++ p.payload ++ dataWithBigEndianBytesOfUInt32 crc := by
    rw [extensionHeaderDataOf, hdata, Option.getD_some]
  obtain ⟨hlength, htype, hpayload, hincluded⟩ := read_extensionData htypeId hheader
  have hrawData : rtpPacket.rawPacketDataUsingInteropOptions environment [] =
      .ok (upToCrc ++ dataWithBigEndianBytesOfUInt32 crc) := by
    rw [RtpPacket.rawPacketDataUsingInteropOptions, hraw]
  simp only [handshakePacketParsedFromRtpPacket, Throws.bind_eq_ok, checkOperation_eq_ok]
  refine ⟨⟨⟩, htimeStamp, ⟨⟩, hversion, ⟨⟩, hextension, ⟨⟩, hidentifier, ⟨⟩, hlength, p.typeId,
    htype, p.payload, hpayload, crc, hincluded, _, hrawData, _, skipLast_crc _ _, ⟨⟩, hcrc, rfl⟩

theorem embedded_of_fits {p : HandshakePacket} (htypeId : p.typeId.length = handshakeTypeIdLength)
    (hfits : p.payload.length + headerFooterLengthWithoutHmac < 0x10000)
    (environment : Environment) (sequenceNumber : UInt16) :
    p.embeddedIntoRtpPacketWithSequenceNumber environment sequenceNumber [] =
      .ok (rtpPacketFields sequenceNumber (p.rtpExtensionPayloadExceptCrc ++
        dataWithBigEndianBytesOfUInt32
          (bytesUpToCrc sequenceNumber p.rtpExtensionPayloadExceptCrc).crc32)) := by
  have hextension : p.rtpExtensionPayloadExceptCrc.length + handshakeCrcLength < 0x10000 := by
    rw [rtpExtensionPayloadExceptCrc, List.length_append, htypeId]
    rw [headerFooterLengthWithoutHmac] at hfits
    omega
  have hlength (crc : UInt32) :
      (p.rtpExtensionPayloadExceptCrc ++ dataWithBigEndianBytesOfUInt32 crc).length < 0x10000 := by
    rw [List.length_append]
    exact hextension
  simp only [embeddedIntoRtpPacketWithSequenceNumber, requireState, if_pos htypeId,
    rtpPacketWithVersion_fields (hlength _), rawPacketData_fields hextension, skipLast_crc, bind,
    Except.bind]

/-- Whatever the environments are, the packet comes out as it went in. -/
theorem transported_of_fits {p : HandshakePacket}
    (htypeId : p.typeId.length = handshakeTypeIdLength)
    (hfits : p.payload.length + headerFooterLengthWithoutHmac < 0x10000)
    (sender receiver : Environment) (sequenceNumber : UInt16) :
    p.transported sender receiver sequenceNumber = .ok p := by
  have hextension : p.rtpExtensionPayloadExceptCrc.length + handshakeCrcLength < 0x10000 := by
    rw [rtpExtensionPayloadExceptCrc, List.length_append, htypeId]
    rw [headerFooterLengthWithoutHmac] at hfits
    omega
  simp only [transported, embedded_of_fits htypeId hfits, rawPacketData_fields hextension,
    parsed_fields hextension, bind, Except.bind]
  exact parsed_of_extensionData htypeId rfl rfl rfl rfl rfl rfl receiver rfl

theorem checkOperation_bind_eq_error {α : Type} {condition : Prop} [Decidable condition]
    {f : Unit → Throws α} (h : condition → f () = .error (.operationFailed none)) :
    (checkOperation condition >>= f) = .error (.operationFailed none) := by
  unfold checkOperation
  split
  · exact h ‹_›
  · rfl

/-- The CRC of the packet as it is. -/
def recomputedCrc (environment : Environment) (rtpPacket : RtpPacket) : Throws UInt32 := do
  return (← (← rtpPacket.rawPacketDataUsingInteropOptions environment []).skipLast 4).crc32

/-- Whatever else is in the packet. -/
theorem rejected_of_crc {environment : Environment} {rtpPacket : RtpPacket}
    {included recomputed : UInt32}
    (hincluded : getIncludedHandshakeCrcFromRtp rtpPacket = .ok included)
    (hrecomputed : recomputedCrc environment rtpPacket = .ok recomputed)
    (hne : included ≠ recomputed) : handshakePacketParsedFromRtpPacket environment rtpPacket =
      .error (.operationFailed none) := by
  obtain ⟨raw, hraw, hrecomputed⟩ := Throws.bind_eq_ok.mp hrecomputed
  obtain ⟨upToCrc, hupToCrc, hcrc⟩ := Throws.bind_eq_ok.mp hrecomputed
  obtain rfl := Throws.pure_eq_ok.mp hcrc
  unfold handshakePacketParsedFromRtpPacket
  -- the checks in front of the one of the CRC raise the same
  refine checkOperation_bind_eq_error fun _ => checkOperation_bind_eq_error fun _ =>
    checkOperation_bind_eq_error fun _ => checkOperation_bind_eq_error fun _ =>
    checkOperation_bind_eq_error fun hlength => ?_
  rw [headerFooterLengthWithoutHmac] at hlength
  have htypeId : getHandshakeTypeIdFromRtp rtpPacket = .ok _ :=
    NSData.take_eq_ok.mpr ⟨by omega, rfl⟩
  obtain ⟨payload, hpayload⟩ : ∃ payload, getHandshakePayloadFromRtp rtpPacket = .ok payload := by
    refine ⟨_, Throws.bind_eq_ok.mpr ⟨_, NSData.skip_eq_ok.mpr ⟨by omega, rfl⟩,
      NSData.skipLast_eq_ok.mpr ⟨?_, rfl⟩⟩⟩
    rw [List.length_drop]
    omega
  simp only [htypeId, hpayload, hincluded, hraw, hupToCrc, checkOperation, if_neg hne, bind,
    Except.bind]

section
variable [CryptoTools]

/-- The HMAC that goes to the end of the packet. -/
def truncatedHmac (p : HandshakePacket) (macKey : NSData) : NSData :=
  List.take handshakeTruncatedHmacLength
    (p.rtpExtensionPayloadUsedForHmacBeforeHmacAppended.hmacWithSha256WithKey macKey)

variable (hhmac : ∀ key data, (CryptoTools.hmacSha256 key data).length = 32)
include hhmac

theorem take_hmac (data macKey : NSData) :
    (data.hmacWithSha256WithKey macKey).take handshakeTruncatedHmacLength =
      .ok (List.take handshakeTruncatedHmacLength (data.hmacWithSha256WithKey macKey)) := by
  refine NSData.take_eq_ok.mpr ⟨?_, rfl⟩
  rw [NSData.hmacWithSha256WithKey, hhmac]
  decide

theorem length_truncatedHmac (p : HandshakePacket) (macKey : NSData) :
    (p.truncatedHmac macKey).length = handshakeTruncatedHmacLength := by
  rw [truncatedHmac, List.length_take, NSData.hmacWithSha256WithKey, hhmac]
  rfl

theorem withHmacAppended_eq {p : HandshakePacket}
    (htypeId : p.typeId.length = handshakeTypeIdLength) (macKey : NSData) :
    p.withHmacAppended macKey = .ok ⟨p.typeId, p.payload ++ p.truncatedHmac macKey⟩ := by
  simp only [withHmacAppended, take_hmac hhmac, handshakePacketWithTypeId, owsRequire,
    if_pos htypeId, bind, Except.bind]
  rfl

/-- The packet with eight bytes more passes just if these are its truncated HMAC. -/
theorem withHmacVerifiedAndRemoved_eq {p : HandshakePacket}
    (htypeId : p.typeId.length = handshakeTypeIdLength) {mac : NSData}
    (hmac : mac.length = handshakeTruncatedHmacLength) (macKey : NSData) :
    (HandshakePacket.mk p.typeId (p.payload ++ mac)).withHmacVerifiedAndRemoved macKey =
      if p.truncatedHmac macKey = mac then .ok p else .error (.operationFailed none) := by
  have hauthenticated :
      (HandshakePacket.mk p.typeId (p.payload ++ mac)).rtpExtensionHeaderAndPayloadExceptCrc =
        p.rtpExtensionPayloadUsedForHmacBeforeHmacAppended ++ mac := by
    have hlength : (p.payload ++ mac).length + headerFooterLengthWithoutHmac =
        p.payload.length + headerFooterLengthWithHmac := by
      rw [List.length_append, hmac, headerFooterLengthWithHmac]
      omega
    simp only [rtpExtensionHeaderAndPayloadExceptCrc, extensionHeaderAndPayload, hlength,
      rtpExtensionPayloadUsedForHmacBeforeHmacAppended, List.append_assoc]
  have hskipLast (front : NSData) :
      (front ++ mac).skipLast handshakeTruncatedHmacLength = .ok front := by
    rw [NSData.skipLast_eq_ok, List.length_append, hmac, Nat.add_sub_cancel, List.take_left]
    exact ⟨Nat.le_add_left _ _, rfl⟩
  have htakeLast (front : NSData) :
      (front ++ mac).takeLast handshakeTruncatedHmacLength = .ok mac := by
    rw [NSData.takeLast_eq_ok, List.length_append, hmac, Nat.add_sub_cancel, List.drop_left]
    exact ⟨Nat.le_add_left _ _, rfl⟩
  simp only [withHmacVerifiedAndRemoved, hauthenticated, hskipLast, htakeLast, take_hmac hhmac,
    checkOperation, NSData.isEqualToDataTimingSafe_iff, handshakePacketWithTypeId, owsRequire,
    if_pos htypeId, bind, Except.bind]
  unfold truncatedHmac
  split_ifs <;> rfl

end

end HandshakePacket

/-- What the two ends of a handshake rely on, for all packets, keys and sequence numbers. -/
structure FramesFaithfully [CryptoTools] (sender receiver : Environment) : Prop where
  transported : ∀ p : HandshakePacket, p.typeId.length = handshakeTypeIdLength →
    p.payload.length + headerFooterLengthWithoutHmac < 0x10000 →
    ∀ sequenceNumber, p.transported sender receiver sequenceNumber = .ok p
  transportedWithHmac : ∀ p : HandshakePacket, p.typeId.length = handshakeTypeIdLength →
    p.payload.length + headerFooterLengthWithHmac < 0x10000 →
    ∀ (macKey : NSData) (sequenceNumber : UInt16), ∃ q : HandshakePacket,
      p.withHmacAppended macKey = .ok q ∧
      q.transported sender receiver sequenceNumber = .ok q ∧
      q.withHmacVerifiedAndRemoved macKey = .ok p
  rejectsOtherCrc : ∀ (rtpPacket : RtpPacket) (included recomputed : UInt32),
    HandshakePacket.getIncludedHandshakeCrcFromRtp rtpPacket = .ok included →
    HandshakePacket.recomputedCrc receiver rtpPacket = .ok recomputed → included ≠ recomputed →
    HandshakePacket.handshakePacketParsedFromRtpPacket receiver rtpPacket =
      .error (.operationFailed none)
  /-- Eight bytes, from wherever they come, are taken for the HMAC. -/
  verifiedAndRemoved : ∀ (p : HandshakePacket) (mac macKey : NSData),
    p.typeId.length = handshakeTypeIdLength → mac.length = handshakeTruncatedHmacLength →
    (HandshakePacket.mk p.typeId (p.payload ++ mac)).withHmacVerifiedAndRemoved macKey =
      if p.truncatedHmac macKey = mac then .ok p else .error (.operationFailed none)

theorem framesFaithfully_of_hmac [CryptoTools]
    (hhmac : ∀ key data, (CryptoTools.hmacSha256 key data).length = 32)
    (sender receiver : Environment) : FramesFaithfully sender receiver where
  transported _ htypeId hfits sequenceNumber :=
    HandshakePacket.transported_of_fits htypeId hfits sender receiver sequenceNumber
  transportedWithHmac p htypeId hfits macKey sequenceNumber := by
    have hlength : (p.payload ++ p.truncatedHmac macKey).length + headerFooterLengthWithoutHmac <
        0x10000 := by
      rw [List.length_append, HandshakePacket.length_truncatedHmac hhmac]
      rw [headerFooterLengthWithHmac] at hfits
      omega
    have htransported := HandshakePacket.transported_of_fits
      (p := ⟨p.typeId, p.payload ++ p.truncatedHmac macKey⟩) htypeId hlength sender receiver
      sequenceNumber
    refine ⟨_, HandshakePacket.withHmacAppended_eq hhmac htypeId macKey, htransported, ?_⟩
    rw [HandshakePacket.withHmacVerifiedAndRemoved_eq hhmac htypeId
      (HandshakePacket.length_truncatedHmac hhmac p macKey), if_pos rfl]
  rejectsOtherCrc _ _ _ hincluded hrecomputed hne :=
    HandshakePacket.rejected_of_crc hincluded hrecomputed hne
  verifiedAndRemoved _ _ macKey htypeId hmac :=
    HandshakePacket.withHmacVerifiedAndRemoved_eq hhmac htypeId hmac macKey

section Sample

/-- An HMAC that has its key in front. -/
local instance framingCryptoTools : CryptoTools where
  sha256 data := data
  hmacSha256 key data := List.take 32 (key ++ data ++ List.replicate 32 0)
  hmacSha1 _ data := data
  aesCfbEncrypt _ _ data := data
  aesCfbDecrypt _ _ data := data
  aesCtrEncrypt _ _ data := data
  aesCtrDecrypt _ _ data := data

theorem length_framingHmac (key data : NSData) :
    (CryptoTools.hmacSha256 key data).length = 32 := by
  show (List.take 32 (key ++ data ++ List.replicate 32 0)).length = 32
  rw [List.length_take, List.length_append, List.length_replicate]
  omega

theorem framesFaithfully_sample :
    FramesFaithfully ⟨[], [], [], []⟩ ⟨[], [], [], [legacyRtpOption]⟩ :=
  framesFaithfully_of_hmac length_framingHmac _ _

end Sample
end SignalIOS.Zrtp
