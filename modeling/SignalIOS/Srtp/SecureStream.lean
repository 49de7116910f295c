import Mathlib.Data.List.Chain
import SignalIOS.Srtp.SecuredPackets

/-! Runs of packets through a stream and its peer. -/
namespace SignalIOS.Srtp.SrtpStream
open SignalIOS.Lib SignalIOS.Rtp

/-- Where elements are picked by their indices, their images can be picked. -/
theorem filterMap_map {α β : Type} (f : α → β) (xs : List α) (is : List ℕ) :
    is.filterMap ((xs.map f)[·]?) = (is.filterMap (xs[·]?)).map f := by
  simp [List.map_filterMap]

section
variable [CryptoTools]

/-- Authentication depends on the keys alone. -/
theorem verifyAuthentication_congr {s t : SrtpStream} (h : s.SameKeys t)
    (environment : Environment) (p : RtpPacket) :
    t.verifyAuthentication environment p = s.verifyAuthentication environment p := by
  simp only [verifyAuthentication, h.2.1]

/-- The genuine packets among those that are received give the same results, and leave the same
stream, as without the packets that fail authentication. -/
theorem receive_ignores_rejected (s : SrtpStream) (environment : Environment)
    (packets : List RtpPacket) :
    let receive := verifyAuthenticationAndDecryptSecuredRtpPacket environment
    let genuine := fun p => (s.verifyAuthentication environment p).isOk
    let received := Method.runAll (packets.map receive) s
    let receivedGenuine := Method.runAll ((packets.filter genuine).map receive) s
    ((packets.zip received.1).filter fun r => genuine r.1).map Prod.snd = receivedGenuine.1 ∧
      received.2 = receivedGenuine.2 := by
  intro receive genuine received receivedGenuine
  refine Method.runAll_filter (I := s.SameKeys) ?_ ?_ packets ⟨rfl, rfl, rfl⟩
  · intro p t ht
    have hkeys := (verifyAuthenticationAndDecrypt_leaves_keys t environment p).run
    exact ⟨ht.1.trans hkeys.1, ht.2.1.trans hkeys.2.1, ht.2.2.trans hkeys.2.2⟩
  · intro p t ht hrejected
    simp only [genuine, ← verifyAuthentication_congr ht] at hrejected
    cases hverified : t.verifyAuthentication environment p with
    | ok u =>
      rw [hverified] at hrejected
      cases hrejected
    | error e => rw [run_verifyAuthenticationAndDecrypt_of_rejected hverified]

/-- Sending secures every packet under the number that the counter finds for it. -/
theorem run_send {s : SrtpStream} (hs : s.Valid) {packets : List RtpPacket}
    (hpackets : ∀ p ∈ packets, p.Valid) (environment : Environment) :
    (Method.runAll (packets.map (encryptAndAuthenticateNormalRtpPacket environment)) s).1 =
      ((packets.zip (s.sequenceCounter.logicalSequences (packets.map (·.sequenceNumber)))).map
        fun r => s.securedPacket r.1 r.2).map .ok := by
  induction packets generalizing s with
  | nil => rfl
  | cons p packets ih =>
    obtain ⟨hp, hrest⟩ := List.forall_mem_cons.mp hpackets
    rw [List.map_cons, Method.runAll_cons,
      run_encryptAndAuthenticateNormalRtpPacket hs hp environment]
    have hrun := ih (s := { s with
      sequenceCounter := (s.sequenceCounter.convertNext p.sequenceNumber).2 }) ⟨hs.1, hs.2⟩ hrest
    simp only [hrun]
    rfl

/-- Receiving packets that the sender secured, each within the range of the one before it. -/
theorem run_receive {s t : SrtpStream} (ht : t.Valid) (hkeys : s.SameKeys t)
    (hcounter : t.sequenceCounter.Valid) (hlawful : CryptoTools.Lawful)
    (environment : Environment) {received : List (RtpPacket × Int64)}
    (hreceived : ∀ r ∈ received, r.1.Valid ∧ r.1.rawPacketData = none ∧ r.1.padding = 0 ∧
      shortId r.2 = r.1.sequenceNumber)
    (hwithin : List.IsChain WithinShortRange
      (t.sequenceCounter.prevLongId :: received.map Prod.snd)) :
    (Method.runAll ((received.map fun r => s.securedPacket r.1 r.2).map
      (verifyAuthenticationAndDecryptSecuredRtpPacket environment)) t).1 =
        (received.map Prod.fst).map .ok := by
  induction received generalizing t with
  | nil => rfl
  | cons r received ih =>
    obtain ⟨⟨hp, hraw, hpadding, hshort⟩, hrest⟩ := List.forall_mem_cons.mp hreceived
    rw [List.map_cons, List.isChain_cons_cons] at hwithin
    have hnext := SequenceCounter.convertNext_of_within hcounter hwithin.1
    rw [hshort] at hnext
    rw [List.map_cons, List.map_cons, Method.runAll_cons,
      run_verifyAuthenticationAndDecrypt_securedPacket ht hkeys hlawful hp hraw hpadding
        environment hnext]
    have hrun := ih (t := { t with sequenceCounter := ⟨r.1.sequenceNumber, r.2⟩ }) ⟨ht.1, ht.2⟩
      hkeys hshort.symm hrest hwithin.2
    simp only [hrun, List.map_cons]

/-- What is sent through the stream comes back from its peer, a stream in the same state, that
receives the packets with these indices. -/
def RoundTrips (environment : Environment) (s : SrtpStream) (packets : List RtpPacket)
    (received : List ℕ) : Prop :=
  ∃ secured : List RtpPacket,
    (Method.runAll (packets.map (encryptAndAuthenticateNormalRtpPacket environment)) s).1 =
      secured.map .ok ∧
    (Method.runAll ((received.filterMap (secured[·]?)).map
      (verifyAuthenticationAndDecryptSecuredRtpPacket environment)) s).1 =
        (received.filterMap (packets[·]?)).map .ok

/-- The number of every packet that is received is within the range of the one received before
it. -/
def InStep (s : SrtpStream) (packets : List RtpPacket) (received : List ℕ) : Prop :=
  List.IsChain WithinShortRange (s.sequenceCounter.prevLongId :: received.filterMap
    ((s.sequenceCounter.logicalSequences (packets.map (·.sequenceNumber)))[·]?))

/-- Packets without padding make the round trip. -/
theorem roundTrips_of_unpadded (hlawful : CryptoTools.Lawful) (environment : Environment)
    {cipherKey macKey cipherIvSalt : NSData} {s : SrtpStream}
    (hs : srtpStreamWithCipherKey cipherKey macKey cipherIvSalt = .ok s)
    (hcipherKey : cipherKey.length = aes128KeyLength) {packets : List RtpPacket}
    (hpackets : ∀ p ∈ packets, ∃ fields, RtpPacket.rtpPacketWithVersion fields = .ok p)
    {received : List ℕ} (hinStep : InStep s packets received)
    (hunpadded : ∀ i ∈ received, ∀ p ∈ packets[i]?, p.padding = 0) :
    RoundTrips environment s packets received := by
  obtain ⟨⟨⟩, hsalt, hs⟩ := Throws.bind_eq_ok.mp hs
  obtain rfl := Except.ok.inj hs
  let s : SrtpStream := ⟨cipherKey, macKey, cipherIvSalt, SequenceCounter.sequenceCounter⟩
  have hvalid : s.Valid := ⟨hcipherKey, owsRequire_eq_ok.mp hsalt⟩
  let ids := s.sequenceCounter.logicalSequences (packets.map (·.sequenceNumber))
  have hids : ids.length = packets.length := by simp [ids]
  have hfst : (packets.zip ids).map Prod.fst = packets := List.map_fst_zip (by omega)
  have hsnd : (packets.zip ids).map Prod.snd = ids := List.map_snd_zip (by omega)
  have hvalidPackets : ∀ p ∈ packets, p.Valid ∧ p.rawPacketData = none := by
    intro p hp
    obtain ⟨fields, hfields⟩ := hpackets p hp
    exact RtpPacket.valid_of_rtpPacketWithVersion hfields
  refine ⟨(packets.zip ids).map fun r => s.securedPacket r.1 r.2,
    run_send hvalid (fun p hp => (hvalidPackets p hp).1) environment, ?_⟩
  let arrived := received.filterMap ((packets.zip ids)[·]?)
  have harrived : ∀ r ∈ arrived, r.1.Valid ∧ r.1.rawPacketData = none ∧ r.1.padding = 0 ∧
      shortId r.2 = r.1.sequenceNumber := by
    intro r hr
    obtain ⟨i, hi, hget⟩ := List.mem_filterMap.mp hr
    have hmem := List.mem_of_getElem? hget
    obtain ⟨hp, hraw⟩ := hvalidPackets r.1 (List.of_mem_zip hmem).1
    have hpacket : packets[i]? = some r.1 := by
      rw [← hfst, List.getElem?_map, hget]
      rfl
    exact ⟨hp, hraw, hunpadded i hi r.1 hpacket,
      SequenceCounter.shortId_of_mem_zip SequenceCounter.sequenceCounter_valid hmem⟩
  have hwithin : List.IsChain WithinShortRange
      (s.sequenceCounter.prevLongId :: arrived.map Prod.snd) := by
    rw [← filterMap_map, hsnd]
    exact hinStep
  have hrun := run_receive hvalid ⟨rfl, rfl, rfl⟩ SequenceCounter.sequenceCounter_valid hlawful
    environment harrived hwithin
  rw [← filterMap_map Prod.fst, hfst] at hrun
  rw [filterMap_map]
  exact hrun

end

section Sample

/-- A cipher with a constant key stream, and the beginning of the data as its HMAC. -/
local instance sampleCryptoTools : CryptoTools where
  sha256 data := data
  hmacSha256 _ data := data
  hmacSha1 key data := List.take 20 (key ++ data ++ List.replicate 20 0)
  aesCfbEncrypt _ _ data := data
  aesCfbDecrypt _ _ data := data
  aesCtrEncrypt _ _ data := data.map (· ^^^ 0x5A)
  aesCtrDecrypt _ _ data := data.map (· ^^^ 0x5A)

theorem sampleCryptoTools_lawful : CryptoTools.Lawful where
  length_hmacSha1 key data := by
    show (List.take 20 (key ++ data ++ List.replicate 20 0)).length = 20
    rw [List.length_take, List.length_append, List.length_replicate]
    omega
  aesCtrDecrypt_aesCtrEncrypt key iv data := by
    have hbyte (byte : UInt8) : byte ^^^ 0x5A ^^^ 0x5A = byte := by
      rw [UInt8.xor_assoc, UInt8.xor_self, UInt8.xor_zero]
    show (data.map (· ^^^ 0x5A)).map (· ^^^ 0x5A) = data
    rw [List.map_map]
    exact (List.map_congr_left fun byte _ => hbyte byte).trans (List.map_id data)

def sampleStream : SrtpStream :=
  ⟨List.replicate 16 1, [2, 3], List.replicate 14 4, SequenceCounter.sequenceCounter⟩

def samplePacket (padding : UInt8) (sequenceNumber : UInt16) : RtpPacket :=
  { RtpPacket.fullPacket with padding, sequenceNumber }

theorem sampleStream_constructed :
    srtpStreamWithCipherKey (List.replicate 16 1) [2, 3] (List.replicate 14 4) =
      .ok sampleStream := rfl

/-- The third packet is the first behind a wrap-around, and arrives last. -/
theorem roundTrips_samplePackets :
    RoundTrips ⟨[], [], [], []⟩ sampleStream [samplePacket 0 30000, samplePacket 0 50000,
      samplePacket 0 4464, samplePacket 0 60000] [0, 1, 3, 2] := by
  refine roundTrips_of_unpadded sampleCryptoTools_lawful ⟨[], [], [], []⟩
    sampleStream_constructed rfl ?_ ?_ (by decide)
  · simp only [List.forall_mem_cons, List.not_mem_nil, false_implies, implies_true, and_true]
    exact ⟨⟨samplePacket 0 30000, rfl⟩, ⟨samplePacket 0 50000, rfl⟩, ⟨samplePacket 0 4464, rfl⟩,
      samplePacket 0 60000, rfl⟩
  · unfold InStep WithinShortRange
    decide +kernel

/-- A packet with padding is rejected: its HMAC stands in front of the padding. -/
theorem not_roundTrips :
    ¬ ∀ _ : CryptoTools, CryptoTools.Lawful → ∀ (environment : Environment)
      (cipherKey macKey cipherIvSalt : NSData) (s : SrtpStream),
      srtpStreamWithCipherKey cipherKey macKey cipherIvSalt = .ok s →
      cipherKey.length = aes128KeyLength → ∀ packets : List RtpPacket,
      (∀ p ∈ packets, ∃ fields, RtpPacket.rtpPacketWithVersion fields = .ok p) →
      ∀ received, InStep s packets received → RoundTrips environment s packets received := by
  intro h
  obtain ⟨secured, hsent, hreceived⟩ := h sampleCryptoTools sampleCryptoTools_lawful
    ⟨[], [], [], []⟩ _ _ _ sampleStream sampleStream_constructed rfl [samplePacket 1 0]
    (List.forall_mem_singleton.mpr ⟨samplePacket 1 0, rfl⟩) [0]
    (by unfold InStep WithinShortRange; decide +kernel)
  have hsecured : (Method.runAll ([samplePacket 1 0].map
      (encryptAndAuthenticateNormalRtpPacket ⟨[], [], [], []⟩)) sampleStream).1 =
        [sampleStream.securedPacket (samplePacket 1 0) 0].map .ok := rfl
  obtain rfl : [sampleStream.securedPacket (samplePacket 1 0) 0] = secured :=
    (List.map_injective_iff.mpr fun _ _ hok => Except.ok.inj hok) (hsecured.symm.trans hsent)
  have hrejected : (Method.runAll ([sampleStream.securedPacket (samplePacket 1 0) 0].map
      (verifyAuthenticationAndDecryptSecuredRtpPacket ⟨[], [], [], []⟩)) sampleStream).1 =
        [.error (.operationFailed "Authentication failed.")] := rfl
  cases hrejected.symm.trans hreceived

end Sample

end SignalIOS.Srtp.SrtpStream
