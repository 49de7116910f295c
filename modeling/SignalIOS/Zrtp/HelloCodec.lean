import SignalIOS.Zrtp.PacketCodecs

/-! Hello packets that are embedded, and parsed again. -/
namespace SignalIOS.Zrtp

/-- The two halves of a byte. -/
theorem uint4s_of_uint8 {low4UInt4 highUInt4 byte : UInt8}
    (h : uint8FromLowUInt4 low4UInt4 highUInt4 = .ok byte) :
    byte &&& 0xF = low4UInt4 ∧ byte >>> 4 = highUInt4 := by
  have hall : ∀ low high : Fin 16,
      (UInt8.ofNat low ||| UInt8.ofNat high <<< 4) &&& 0xF = UInt8.ofNat low ∧
        (UInt8.ofNat low ||| UInt8.ofNat high <<< 4) >>> 4 = UInt8.ofNat high := by
    decide
  simp only [uint8FromLowUInt4, Throws.bind_eq_ok, owsRequire_eq_ok] at h
  obtain ⟨-, hlow, -, hhigh, h⟩ := h
  obtain rfl := Throws.pure_eq_ok.mp h
  have hbyte := hall ⟨low4UInt4.toNat, UInt8.lt_iff_toNat_lt.mp hlow⟩
    ⟨highUInt4.toNat, UInt8.lt_iff_toNat_lt.mp hhigh⟩
  rwa [UInt8.ofNat_toNat, UInt8.ofNat_toNat] at hbyte

namespace HelloPacket

/-- Sizes of the fields, apart from the ZID, which is of its size anyway. -/
structure Valid (p : HelloPacket) : Prop where
  versionId : p.versionId.length = versionIdLength
  clientId : p.clientId.length = clientIdLength
  hashChainH3 : p.hashChainH3.length = hashChainItemLength
  flags0SMP : p.flags0SMP < 0x10
  flagsUnusedLow4 : p.flagsUnusedLow4 < 0x10
  flagsUnusedHigh4 : p.flagsUnusedHigh4 < 0x10
  count_le : ∀ ids ∈ [p.hashIds, p.cipherIds, p.authIds, p.agreeIds, p.sasIds],
    ids.length ≤ maxSpecIds
  length_eq : ∀ ids ∈ [p.hashIds, p.cipherIds, p.authIds, p.agreeIds, p.sasIds], ∀ id ∈ ids,
    id.length = specIdLength

theorem getSpecIdsAt_of_drop {payload rest : NSData} {offset : ℕ} {ids : List NSData}
    (hids : ∀ id ∈ ids, id.length = specIdLength) (hoffset : offset ≤ payload.length)
    (h : payload.drop offset = ids.flatten ++ rest) :
    getSpecIdsAt payload offset ids.length = .ok ids := by
  induction ids generalizing offset with
  | nil => rfl
  | cons id ids ih =>
    rw [List.flatten_cons, List.append_assoc] at h
    have hid : id.length = specIdLength := hids id List.mem_cons_self
    have hlength := congrArg List.length h
    rw [List.length_drop, List.length_append] at hlength
    have hspecId := NSData.subdataWithRange_of_drop h hoffset
    have hdrop := NSData.drop_of_drop h
    rw [hid] at hspecId hdrop hlength
    have hrest := ih (fun id' hid' => hids id' (List.mem_cons_of_mem id hid')) (by omega) hdrop
    rw [List.length_cons, getSpecIdsAt, hspecId]
    dsimp only [bind, Except.bind]
    rw [hrest]
    rfl

theorem length_flatten_specIds {ids : List NSData} (hids : ∀ id ∈ ids, id.length = specIdLength) :
    ids.flatten.length = specIdLength * ids.length := by
  induction ids with
  | nil => rfl
  | cons id ids ih =>
    rw [List.flatten_cons, List.length_append, hids id List.mem_cons_self,
      ih fun id' hid' => hids id' (List.mem_cons_of_mem id hid'), List.length_cons, Nat.mul_succ,
      Nat.add_comm]

theorem getSpecIdListsAt_of_drop {payload rest : NSData} {offset : ℕ} {lists : List (List NSData)}
    (hlists : ∀ ids ∈ lists, ∀ id ∈ ids, id.length = specIdLength)
    (hoffset : offset ≤ payload.length) (h : payload.drop offset = lists.flatten.flatten ++ rest) :
    getSpecIdListsAt payload offset (lists.map List.length) = .ok lists := by
  induction lists generalizing offset with
  | nil => rfl
  | cons ids lists ih =>
    rw [List.flatten_cons, List.flatten_append, List.append_assoc] at h
    have hids := hlists ids List.mem_cons_self
    have hlength := congrArg List.length h
    rw [List.length_drop, List.length_append, length_flatten_specIds hids] at hlength
    have hspecIds := getSpecIdsAt_of_drop hids hoffset h
    have hdrop := NSData.drop_of_drop h
    rw [length_flatten_specIds hids] at hdrop
    have hrest := ih (fun ids' hids' => hlists ids' (List.mem_cons_of_mem ids hids')) (by omega)
      hdrop
    rw [List.map_cons, getSpecIdListsAt, hspecIds]
    dsimp only [bind, Except.bind]
    rw [hrest]
    rfl

theorem getSpecIdsFromPayload_of_drop {payload rest : NSData} {lists : List (List NSData)}
    (hlists : ∀ ids ∈ lists, ∀ id ∈ ids, id.length = specIdLength)
    (hoffset : specIdsOffset ≤ payload.length)
    (h : payload.drop specIdsOffset = lists.flatten.flatten ++ rest) :
    getSpecIdsFromPayload payload (lists.map List.length) = .ok lists := by
  have hids : ∀ id ∈ lists.flatten, id.length = specIdLength := by
    intro id hid
    obtain ⟨ids, hids, hid⟩ := List.mem_flatten.mp hid
    exact hlists ids hids id hid
  have hsum : sumNSUInteger (lists.map List.length) = lists.flatten.length := by
    rw [List.length_flatten, List.sum_eq_foldl]
    rfl
  have hlength := congrArg List.length h
  rw [List.length_drop, List.length_append, length_flatten_specIds hids] at hlength
  have hle : payload.length ≥ specIdsOffset +
      specIdLength * sumNSUInteger (lists.map List.length) := by
    rw [hsum]
    omega
  unfold getSpecIdsFromPayload checkOperation
  rw [if_pos hle]
  exact getSpecIdListsAt_of_drop hlists hoffset h

theorem getSpecIdListsAt_zero {payload : NSData} {offset : ℕ} {counts : List ℕ}
    {specIds : List (List NSData)}
    (h : getSpecIdListsAt payload offset (0 :: counts) = .ok specIds) :
    ∃ lists, specIds = [] :: lists := by
  rw [getSpecIdListsAt] at h
  obtain ⟨subResult, hsubResult, h⟩ := Throws.bind_eq_ok.mp h
  obtain ⟨lists, -, h⟩ := Throws.bind_eq_ok.mp h
  obtain rfl := Throws.pure_eq_ok.mp hsubResult
  obtain rfl := Throws.pure_eq_ok.mp h
  exact ⟨lists, rfl⟩

/-- The second byte, which should have the number of hash ids, is never written. -/
theorem generateFlags_eq_ok {p : HelloPacket} {flags : NSData} (h : p.generateFlags = .ok flags) :
    ∃ b0 b2 b3, flags = [b0, 0, b2, b3] ∧
      uint8FromLowUInt4 (UInt8.ofNat p.hashIds.length) p.flagsUnusedLow4 = .ok b0 ∧
      uint8FromLowUInt4 (UInt8.ofNat p.authIds.length) (UInt8.ofNat p.cipherIds.length) = .ok b2 ∧
      uint8FromLowUInt4 (UInt8.ofNat p.sasIds.length) (UInt8.ofNat p.agreeIds.length) = .ok b3 := by
  simp only [generateFlags, Throws.bind_eq_ok, NSData.setUint8At_eq_ok] at h
  obtain ⟨_, -, _, ⟨-, rfl⟩, b0, hb0, _, ⟨-, rfl⟩, b2, hb2, _, ⟨-, rfl⟩, b3, hb3, -, rfl⟩ := h
  exact ⟨b0, b2, b3, rfl, hb0, hb2, hb3⟩

/-- What the parser reads before it comes to the ids. -/
theorem parsed_of_layout {fields : HelloPacket} (hfields : fields.Valid) (b0 b1 b2 b3 : UInt8)
    {payload ids : NSData} (hpayload : payload = fields.versionId ++ fields.clientId ++
      fields.hashChainH3 ++ fields.zid.getData ++ [b0, b1, b2, b3] ++ ids) :
    helloPacketParsedFromHandshakePacket ⟨handshakeTypeHello, payload⟩ = (do
      let specIds ← getSpecIdsFromPayload payload [(b1 &&& 0xF).toNat, (b2 >>> 4).toNat,
        (b2 &&& 0xF).toNat, (b3 >>> 4).toNat, (b3 &&& 0xF).toNat]
      match specIds with
      | [hashIds, cipherIds, authIds, agreeIds, sasIds] =>
        return { fields with
          flags0SMP := b0 >>> 4
          flagsUnusedHigh4 := b0 &&& 0xF
          flagsUnusedLow4 := b1 >>> 4
          hashIds, cipherIds, authIds, agreeIds, sasIds
          embeddedIntoHandshakePacket := ⟨handshakeTypeHello, payload⟩ }
      | _ => throw .nsRangeException) := by
  have hdrop : payload.drop versionIdOffset = fields.versionId ++ (fields.clientId ++
      (fields.hashChainH3 ++ (fields.zid.getData ++ ([b0, b1, b2, b3] ++ ids)))) := by
    rw [hpayload]
    simp only [List.append_assoc]
    exact List.drop_zero
  obtain ⟨hversionId, hdrop, hle⟩ :=
    NSData.subdataWithRange_step hdrop hfields.versionId (Nat.zero_le _)
  obtain ⟨hclientId, hdrop, hle⟩ := NSData.subdataWithRange_step hdrop hfields.clientId hle
  obtain ⟨hhashChainH3, hdrop, hle⟩ := NSData.subdataWithRange_step hdrop hfields.hashChainH3 hle
  obtain ⟨hzid, hdrop, hle⟩ := NSData.subdataWithRange_step hdrop fields.zid.length_eq hle
  obtain ⟨hflags, hdrop, hle⟩ :=
    NSData.subdataWithRange_step (n := flagsLength) hdrop rfl hle
  have hparsedZid : Zid.zidWithData fields.zid.getData = .ok fields.zid := by
    unfold Zid.zidWithData
    rw [dif_pos fields.zid.length_eq]
  have hlength : payload.length ≥ specIdsOffset := hle
  change payload.subdataWithRange clientIdOffset clientIdLength = _ at hclientId
  change payload.subdataWithRange hashChainH3Offset hashChainItemLength = _ at hhashChainH3
  change payload.subdataWithRange zidOffset zidLength = _ at hzid
  change payload.subdataWithRange flagsOffset flagsLength = _ at hflags
  unfold helloPacketParsedFromHandshakePacket checkOperation
  simp only [if_pos hlength, if_true, hversionId, hclientId, hhashChainH3, hzid, hparsedZid, hflags,
    bind, Except.bind]
  rfl

theorem uint8FromLowUInt4_of_lt {low4UInt4 highUInt4 : UInt8} (hlow : low4UInt4 < 0x10)
    (hhigh : highUInt4 < 0x10) :
    uint8FromLowUInt4 low4UInt4 highUInt4 = .ok (low4UInt4 ||| highUInt4 <<< 4) := by
  simp only [uint8FromLowUInt4, owsRequire, if_pos hlow, if_pos hhigh]
  rfl

theorem ofNat_length_lt {ids : List NSData} (hids : ids.length ≤ maxSpecIds) :
    UInt8.ofNat ids.length < 0x10 ∧ (UInt8.ofNat ids.length).toNat = ids.length := by
  have hlength : ids.length < 16 := Nat.lt_of_le_of_lt hids (by decide)
  have htoNat : (UInt8.ofNat ids.length).toNat = ids.length := by
    rw [UInt8.toNat_ofNat']
    omega
  rw [UInt8.lt_iff_toNat_lt, htoNat]
  exact ⟨hlength, rfl⟩

theorem generateFlags_of_valid {p : HelloPacket} (hp : p.Valid) :
    ∃ flags, p.generateFlags = .ok flags := by
  have hcount := hp.count_le
  simp only [List.forall_mem_cons] at hcount
  obtain ⟨hhash, hcipher, hauth, hagree, hsas, -⟩ := hcount
  unfold generateFlags
  rw [uint8FromLowUInt4_of_lt hp.flagsUnusedHigh4 hp.flags0SMP,
    uint8FromLowUInt4_of_lt (ofNat_length_lt hhash).1 hp.flagsUnusedLow4,
    uint8FromLowUInt4_of_lt (ofNat_length_lt hauth).1 (ofNat_length_lt hcipher).1,
    uint8FromLowUInt4_of_lt (ofNat_length_lt hsas).1 (ofNat_length_lt hagree).1]
  exact ⟨_, rfl⟩

/-- The ids of a packet, list after list, as its payload has them. -/
theorem flatten_specIds (p : HelloPacket) :
    (p.hashIds ++ p.cipherIds ++ p.authIds ++ p.agreeIds ++ p.sasIds).flatten =
      [p.hashIds, p.cipherIds, p.authIds, p.agreeIds, p.sasIds].flatten.flatten := by
  simp only [List.flatten_cons, List.flatten_nil, List.append_nil, List.append_assoc]

section
variable [CryptoTools]

theorem withHmacAppended_of_length {p : HandshakePacket}
    (hhmac : ∀ key data, (CryptoTools.hmacSha256 key data).length = 32) (macKey : NSData)
    (htypeId : p.typeId.length = handshakeTypeIdLength) :
    ∃ digest, p.withHmacAppended macKey = .ok ⟨p.typeId, p.payload ++ digest⟩ := by
  have hdigest := NSData.take_eq_ok.mpr
    ⟨(by rw [NSData.hmacWithSha256WithKey, hhmac]; decide :
      handshakeTruncatedHmacLength ≤ (p.rtpExtensionPayloadUsedForHmacBeforeHmacAppended
        |>.hmacWithSha256WithKey macKey).length), rfl⟩
  unfold HandshakePacket.withHmacAppended HandshakePacket.handshakePacketWithTypeId owsRequire
  rw [hdigest, if_pos htypeId]
  exact ⟨_, rfl⟩

/-- The packet of valid fields, and how it is laid out. -/
theorem helloPacketWithVersion_of_valid {fields : HelloPacket} (hfields : fields.Valid)
    (hhmac : ∀ key data, (CryptoTools.hmacSha256 key data).length = 32) (hmacKey : NSData) :
    ∃ flags payload digest : NSData, fields.generateFlags = .ok flags ∧
      payload = fields.versionId ++ fields.clientId ++ fields.hashChainH3 ++ fields.zid.getData ++
        flags ++ ([fields.hashIds, fields.cipherIds, fields.authIds, fields.agreeIds,
          fields.sasIds].flatten.flatten ++ digest) ∧
      fields.helloPacketWithVersion hmacKey =
        .ok { fields with embeddedIntoHandshakePacket := ⟨handshakeTypeHello, payload⟩ } := by
  obtain ⟨flags, hflags⟩ := generateFlags_of_valid hfields
  have hcount := hfields.count_le
  simp only [List.forall_mem_cons] at hcount
  obtain ⟨hhash, hcipher, hauth, hagree, hsas, -⟩ := hcount
  have hnibble (flag : UInt8) (hflag : flag < 0x10) : flag &&& 0xF0 = 0 := by
    have hall : ∀ n : Fin 16, UInt8.ofNat n &&& 0xF0 = 0 := by decide
    have := hall ⟨flag.toNat, UInt8.lt_iff_toNat_lt.mp hflag⟩
    rwa [UInt8.ofNat_toNat] at this
  obtain ⟨digest, hembedding⟩ := withHmacAppended_of_length
    (p := ⟨handshakeTypeHello, fields.versionId ++ fields.clientId ++ fields.hashChainH3 ++
      fields.zid.getData ++ flags ++ [fields.hashIds, fields.cipherIds, fields.authIds,
        fields.agreeIds, fields.sasIds].flatten.flatten⟩) hhmac hmacKey rfl
  refine ⟨flags, _, digest, hflags, rfl, ?_⟩
  unfold helloPacketWithVersion generatePayload HandshakePacket.handshakePacketWithTypeId
  simp only [owsRequire, if_pos (hnibble _ hfields.flags0SMP),
    if_pos (hnibble _ hfields.flagsUnusedLow4), if_pos (hnibble _ hfields.flagsUnusedHigh4),
    if_pos hfields.versionId, if_pos hfields.clientId, if_pos hfields.hashChainH3, if_pos hhash,
    if_pos hcipher, if_pos hauth, if_pos hagree, if_pos hsas, hflags, flatten_specIds, bind,
    Except.bind, pure, Except.pure]
  have htypeId : handshakeTypeHello.length = handshakeTypeIdLength := rfl
  simp only [if_pos htypeId, hembedding]
  rw [List.append_assoc _ _ digest]

/-- The packet with these fields is parsed back from the handshake packet it embeds itself into,
with all its fields. -/
def RoundTrips (fields : HelloPacket) (hmacKey : NSData) : Prop :=
  ∃ p, fields.helloPacketWithVersion hmacKey = .ok p ∧
    helloPacketParsedFromHandshakePacket p.embeddedIntoHandshakePacket = .ok p

/-- A packet comes back just if what goes to the byte that is written twice, and what is read from
the one that is never written, is zero: no flags, and no hash ids. -/
theorem roundTrips_iff_noFlags {fields : HelloPacket} (hfields : fields.Valid)
    (hhmac : ∀ key data, (CryptoTools.hmacSha256 key data).length = 32) (hmacKey : NSData) :
    fields.RoundTrips hmacKey ↔ fields.flags0SMP = 0 ∧ fields.flagsUnusedLow4 = 0 ∧
      fields.flagsUnusedHigh4 = 0 ∧ fields.hashIds = [] := by
  obtain ⟨flags, payload, digest, hflags, hpayload, hp⟩ :=
    helloPacketWithVersion_of_valid hfields hhmac hmacKey
  obtain ⟨b0, b2, b3, rfl, hb0, hb2, hb3⟩ := generateFlags_eq_ok hflags
  have hlayout := parsed_of_layout hfields b0 0 b2 b3 hpayload
  obtain ⟨hb0low, hb0high⟩ := uint4s_of_uint8 hb0
  obtain ⟨hb2low, hb2high⟩ := uint4s_of_uint8 hb2
  obtain ⟨hb3low, hb3high⟩ := uint4s_of_uint8 hb3
  constructor
  · rintro ⟨p, hfactory, hparsed⟩
    obtain rfl := Except.ok.inj (hp.symm.trans hfactory)
    obtain ⟨specIds, hspecIds, hparsed⟩ := Throws.bind_eq_ok.mp (hlayout.symm.trans hparsed)
    unfold getSpecIdsFromPayload at hspecIds
    obtain ⟨_, -, hspecIds⟩ := Throws.bind_eq_ok.mp hspecIds
    obtain ⟨lists, rfl⟩ := getSpecIdListsAt_zero hspecIds
    split at hparsed
    case h_2 => cases hparsed
    case h_1 hashIds _ _ _ _ heq =>
      obtain ⟨hhashIds, -⟩ := List.cons.inj heq
      have hfields := Throws.pure_eq_ok.mp hparsed
      have h0SMP : b0 >>> 4 = fields.flags0SMP := congrArg flags0SMP hfields
      have hLow4 : (0 : UInt8) >>> 4 = fields.flagsUnusedLow4 := congrArg flagsUnusedLow4 hfields
      have hHigh4 : b0 &&& 0xF = fields.flagsUnusedHigh4 := congrArg flagsUnusedHigh4 hfields
      have hnone : hashIds = fields.hashIds := congrArg HelloPacket.hashIds hfields
      rw [← hnone, ← hhashIds, ← hLow4, ← h0SMP, ← hHigh4, hb0low, hb0high, ← hnone, ← hhashIds,
        ← hLow4]
      exact ⟨rfl, rfl, rfl, rfl⟩
  · rintro ⟨h0SMP, hLow4, hHigh4, hnone⟩
    refine ⟨_, hp, ?_⟩
    have hcount := hfields.count_le
    simp only [List.forall_mem_cons] at hcount
    obtain ⟨-, hcipher, hauth, hagree, hsas, -⟩ := hcount
    have hcounts : [((0 : UInt8) &&& 0xF).toNat, (b2 >>> 4).toNat, (b2 &&& 0xF).toNat,
        (b3 >>> 4).toNat, (b3 &&& 0xF).toNat] =
        [fields.hashIds, fields.cipherIds, fields.authIds, fields.agreeIds,
          fields.sasIds].map List.length := by
      rw [hb2low, hb2high, hb3low, hb3high, (ofNat_length_lt hcipher).2,
        (ofNat_length_lt hauth).2, (ofNat_length_lt hagree).2, (ofNat_length_lt hsas).2, hnone]
      rfl
    have hfront : (fields.versionId ++ fields.clientId ++ fields.hashChainH3 ++
        fields.zid.getData ++ [b0, 0, b2, b3]).length = specIdsOffset := by
      simp only [List.length_append, hfields.versionId, hfields.clientId, hfields.hashChainH3,
        fields.zid.length_eq]
      rfl
    have hoffset : specIdsOffset ≤ payload.length := by
      rw [hpayload, List.length_append, hfront]
      omega
    have hdrop : payload.drop specIdsOffset = [fields.hashIds, fields.cipherIds, fields.authIds,
        fields.agreeIds, fields.sasIds].flatten.flatten ++ digest := by
      rw [hpayload]
      exact List.drop_left' hfront
    have hspecIds := getSpecIdsFromPayload_of_drop hfields.length_eq hoffset hdrop
    rw [hlayout, hcounts, hspecIds]
    have h0SMP' : b0 >>> 4 = fields.flags0SMP := by rw [hb0high, hLow4, h0SMP]
    have hHigh4' : b0 &&& 0xF = fields.flagsUnusedHigh4 := by
      rw [hb0low, hnone, hHigh4]
      rfl
    have hLow4' : (0 : UInt8) >>> 4 = fields.flagsUnusedLow4 := by
      rw [hLow4]
      rfl
    rw [h0SMP', hHigh4', hLow4']
    rfl

end

section Sample

/-- The key and the data, as an HMAC of 32 bytes. -/
local instance helloCryptoTools : CryptoTools where
  sha256 data := data
  hmacSha256 key data := List.take 32 (key ++ data ++ List.replicate 32 0)
  hmacSha1 _ data := data
  aesCfbEncrypt _ _ data := data
  aesCfbDecrypt _ _ data := data
  aesCtrEncrypt _ _ data := data
  aesCtrDecrypt _ _ data := data

theorem length_helloHmac (key data : NSData) :
    (CryptoTools.hmacSha256 key data).length = 32 := by
  show (List.take 32 (key ++ data ++ List.replicate 32 0)).length = 32
  rw [List.length_take, List.length_append, List.length_replicate]
  omega

/-- A hello with one hash id, or none, one cipher id and two agreement ids. -/
def sampleHello (hashIds : List NSData) : HelloPacket where
  versionId := List.replicate versionIdLength 1
  clientId := List.replicate clientIdLength 2
  hashChainH3 := List.replicate hashChainItemLength 3
  zid := Zid.nullZid
  flags0SMP := 0
  flagsUnusedLow4 := 0
  flagsUnusedHigh4 := 0
  hashIds
  cipherIds := [[5, 5, 5, 5]]
  authIds := []
  agreeIds := [[6, 6, 6, 6], [7, 7, 7, 7]]
  sasIds := []
  embeddedIntoHandshakePacket := ⟨[], []⟩

theorem roundTrips_sampleHello : (sampleHello []).RoundTrips [] :=
  (roundTrips_iff_noFlags (by constructor <;> decide) length_helloHmac []).mpr
    ⟨rfl, rfl, rfl, rfl⟩

/-- The hash id is read as the cipher id. -/
theorem not_roundTrips_hashId :
    ¬ ∀ _ : CryptoTools, (∀ key data, (CryptoTools.hmacSha256 key data).length = 32) →
      ∀ (fields : HelloPacket) (hmacKey : NSData), fields.Valid → fields.RoundTrips hmacKey := by
  intro h
  obtain ⟨p, hp, hparsed⟩ := h helloCryptoTools length_helloHmac (sampleHello [[4, 4, 4, 4]]) []
    (by constructor <;> decide)
  have hread : ((sampleHello [[4, 4, 4, 4]]).helloPacketWithVersion [] >>= fun p =>
      helloPacketParsedFromHandshakePacket p.embeddedIntoHandshakePacket).map
        HelloPacket.hashIds = .ok [] := rfl
  have hwritten : ((sampleHello [[4, 4, 4, 4]]).helloPacketWithVersion []).map
      HelloPacket.hashIds = .ok [[4, 4, 4, 4]] := rfl
  rw [hp] at hwritten hread
  have hsame : Except.map HelloPacket.hashIds (.ok p : Throws HelloPacket) = .ok [] :=
    (congrArg (Except.map HelloPacket.hashIds) hparsed).symm.trans hread
  cases hsame.symm.trans hwritten

end Sample

end HelloPacket
end SignalIOS.Zrtp
