import Mathlib.Data.List.Nodup
import SignalIOS.Audio.AudioPacker
import SignalIOS.Srtp.CounterBlocks
import SignalIOS.Srtp.SecureStream

/-! Sockets that send the packets of a packer through a secure stream. -/
namespace SignalIOS.Audio
open SignalIOS.Lib SignalIOS.Rtp SignalIOS.Srtp

namespace AudioSocket

/-- The packet that `send:` makes, before it is secured. -/
def rtpPacket (audioPacket : EncodedAudioPacket) : Throws RtpPacket :=
  RtpPacket.rtpPacketWithDefaultsAndSequenceNumber audioPacket.sequenceNumber audioPacket.audioData

/-- The packet that the audio socket makes. -/
def plainPacket (audioPacket : EncodedAudioPacket) : RtpPacket where
  version := packetVersion
  padding := 0
  hasExtensionHeader := false
  contributingSourceIdentifiers := []
  isMarkerBitSet := false
  payloadType := 0
  sequenceNumber := audioPacket.sequenceNumber
  timeStamp := 0
  synchronizationSourceIdentifier := 0
  extensionHeaderIdentifier := 0
  extensionHeaderData := none
  payload := audioPacket.audioData
  wasAdjustedDueToInteropIssues := false
  rawPacketData := none

theorem rtpPacket_eq (audioPacket : EncodedAudioPacket) :
    rtpPacket audioPacket = .ok (plainPacket audioPacket) := by
  have hversion : packetVersion &&& 0xFC = 0 := rfl
  have hpayloadType : (0 : UInt8) &&& 0x80 = 0 := rfl
  have hcount : ([] : List UInt32).length < 0x10 := by decide
  simp only [rtpPacket, RtpPacket.rtpPacketWithDefaultsAndSequenceNumber,
    RtpPacket.rtpPacketWithVersion, owsRequire, if_pos hversion, if_pos hpayloadType,
    if_pos hcount]
  rfl

theorem plainPacket_valid (audioPacket : EncodedAudioPacket) : (plainPacket audioPacket).Valid where
  version := show packetVersion &&& 0xFC = 0 from rfl
  payloadType := show (0 : UInt8) &&& 0x80 = 0 from rfl
  contributingSources := Nat.succ_pos 15
  extensionHeader := rfl
  extensionHeaderLength := by rintro _ ⟨⟩
  noExtensionHeader _ := rfl
  notAdjusted := rfl

/-- The numbers of a packer's packets, as the counter of a new stream extends them. -/
theorem logicalSequences_finishedPackets (secureRandomUInt16 : UInt16)
    (messages : List AudioPacker.PackerMessage) :
    let audioPackets :=
      AudioPacker.finishedPackets messages (AudioPacker.audioPacker secureRandomUInt16)
    SequenceCounter.sequenceCounter.logicalSequences (audioPackets.map (·.sequenceNumber)) =
      (List.range audioPackets.length).map fun i =>
        Int64.ofNat ((secureRandomUInt16 &&& 0x3FFF).toNat + i) := by
  intro audioPackets
  let first := (secureRandomUInt16 &&& 0x3FFF).toNat
  have hnumbers : audioPackets.map (·.sequenceNumber) =
      (List.range audioPackets.length).map fun i => UInt16.ofNat (first + i) := by
    rw [AudioPacker.sequenceNumber_finishedPackets]
    apply List.map_congr_left
    intro i _
    rw [UInt16.ofNat_add]
    congr 1
    exact UInt16.ofNat_toNat.symm
  have hfirst : first ≤ 0x3FFF := by
    have hand : first = secureRandomUInt16.toNat &&& 0x3FFF := UInt16.toNat_and _ _
    rw [hand]
    exact Nat.and_le_right
  have hwithin :
      WithinShortRange SequenceCounter.sequenceCounter.prevLongId (Int64.ofNat first) := by
    have hlong : (Int64.ofNat first - 0).toInt = first := by
      rw [Int64.sub_zero]
      exact Int64.toInt_ofNat_of_lt (by omega)
    constructor
    · apply Int64.le_iff_toInt_le.mpr
      show (-32768 : Int) ≤ (Int64.ofNat first - 0).toInt
      omega
    · apply Int64.le_iff_toInt_le.mpr
      show (Int64.ofNat first - 0).toInt ≤ 32767
      omega
  rw [hnumbers]
  exact SequenceCounter.logicalSequences_consecutive SequenceCounter.sequenceCounter_valid first
    audioPackets.length hwithin

section
variable [CryptoTools]

def send (environment : Environment) (audioPacket : EncodedAudioPacket) :
    Method Exception SrtpStream RtpPacket := do
  let rtpPacket ← rtpPacket audioPacket
  SrtpStream.encryptAndAuthenticateNormalRtpPacket environment rtpPacket

/-- What `send:` returns for a packet that it encrypts under `iv`: the ciphertext of the data, and
then the HMAC of the packet with this ciphertext. It raises where the cipher does not take the
key. -/
def sentUnder (cipherKey macKey : NSData) (audioPacket : EncodedAudioPacket) (iv : NSData) :
    Throws RtpPacket :=
  let encryptedPayload := CryptoTools.aesCtrEncrypt cipherKey iv audioPacket.audioData
  let hmac := (SrtpStream.authenticatedBytes (plainPacket audioPacket)
    encryptedPayload).hmacWithSha1WithKey macKey
  if cipherKey.length = aes128KeyLength then
    .ok { plainPacket audioPacket with payload := encryptedPayload ++ hmac }
  else .error .badArgument

/-- Sending a packet takes the next number, and encrypts the data under its vector. -/
theorem run_send {s : SrtpStream} (hs : s.cipherIvSalt.length = ivSaltLength)
    (environment : Environment) (audioPacket : EncodedAudioPacket) :
    (send environment audioPacket).run.run s =
      (sentUnder s.cipherKey s.macKey audioPacket (SrtpStream.ivOf s.cipherIvSalt 0
        (s.sequenceCounter.convertNext audioPacket.sequenceNumber).1),
        { s with
          sequenceCounter := (s.sequenceCounter.convertNext audioPacket.sequenceNumber).2 }) := by
  rw [send, Method.run_bind, Method.run_lift, rtpPacket_eq]
  dsimp only
  by_cases hkey : s.cipherKey.length = aes128KeyLength
  · rw [SrtpStream.run_encryptAndAuthenticateNormalRtpPacket ⟨hkey, hs⟩
      (plainPacket_valid audioPacket), sentUnder, if_pos hkey]
    rfl
  · have hencrypt (iv : NSData) :
        (plainPacket audioPacket).payload.encryptWithAesInCounterMode s.cipherKey iv =
          .error .badArgument := by
      simp only [NSData.encryptWithAesInCounterMode, NSData.usingCipher, owsRequire, if_neg hkey]
      rfl
    rw [sentUnder, if_neg hkey]
    simp only [SrtpStream.encryptAndAuthenticateNormalRtpPacket, Method.run_bind,
      SrtpStream.run_getIvForSequenceNumber hs, Method.run_get, Method.run_lift, hencrypt]
    rfl

/-- What is sent for packets one after the other, by the numbers that the counter gives them. -/
theorem runAll_send {s : SrtpStream} (hs : s.cipherIvSalt.length = ivSaltLength)
    (environment : Environment) (audioPackets : List EncodedAudioPacket) :
    (Method.runAll (audioPackets.map (send environment)) s).1 =
      audioPackets.zipWith (sentUnder s.cipherKey s.macKey)
        ((s.sequenceCounter.logicalSequences (audioPackets.map (·.sequenceNumber))).map
          (SrtpStream.ivOf s.cipherIvSalt 0)) := by
  induction audioPackets generalizing s with
  | nil => rfl
  | cons audioPacket audioPackets ih =>
    have hrest := ih (s := { s with
      sequenceCounter := (s.sequenceCounter.convertNext audioPacket.sequenceNumber).2 }) hs
    rw [List.map_cons, Method.runAll_cons, run_send hs]
    dsimp only
    rw [hrest]
    rfl

/-- The packets of a packer, sent through a new stream, are encrypted under different vectors, and
no counter block of one packet is a counter block of another. -/
theorem keystream_unique (environment : Environment) {cipherKey macKey cipherIvSalt : NSData}
    {s : SrtpStream} (hs : SrtpStream.srtpStreamWithCipherKey cipherKey macKey cipherIvSalt = .ok s)
    (secureRandomUInt16 : UInt16) (messages : List AudioPacker.PackerMessage)
    (hcount : (AudioPacker.finishedPackets messages
      (AudioPacker.audioPacker secureRandomUInt16)).length < 0x100000000) :
    let audioPackets :=
      AudioPacker.finishedPackets messages (AudioPacker.audioPacker secureRandomUInt16)
    ∃ ivs : List NSData,
      ivs = ((List.range audioPackets.length).map fun i =>
        (cipherIvSalt ++ [0, 0]).zipWith (· ^^^ ·)
          (bigEndianBytes 16 (((secureRandomUInt16 &&& 0x3FFF).toNat + i) * 65536))) ∧
      (Method.runAll (audioPackets.map (send environment)) s).1 =
        audioPackets.zipWith (sentUnder cipherKey macKey) ivs ∧
      ivs.Nodup ∧
      (audioPackets.zip ivs).Pairwise fun p q =>
        p.1.audioData.length ≤ 0x100000 → q.1.audioData.length ≤ 0x100000 →
          (counterBlocks p.2 p.1.audioData.length).Disjoint
            (counterBlocks q.2 q.1.audioData.length) := by
  intro audioPackets
  obtain ⟨⟨⟩, hsalt, hs⟩ := Throws.bind_eq_ok.mp hs
  obtain rfl := Except.ok.inj hs
  have hsalt : cipherIvSalt.length = ivSaltLength := owsRequire_eq_ok.mp hsalt
  let first := (secureRandomUInt16 &&& 0x3FFF).toNat
  let iv (i : ℕ) := SrtpStream.ivOf cipherIvSalt 0 (Int64.ofNat (first + i))
  have hfirst : first < 65536 := (secureRandomUInt16 &&& 0x3FFF).toNat_lt
  have hcount : audioPackets.length < 0x100000000 := hcount
  refine ⟨(List.range audioPackets.length).map iv, ?_, ?_, ?_, ?_⟩
  · apply List.map_congr_left
    intro i hi
    have hilt := List.mem_range.mp hi
    exact SrtpStream.ivOf_eq_zipWith hsalt (by omega)
  · rw [runAll_send hsalt, logicalSequences_finishedPackets, List.map_map]
    rfl
  · refine List.Nodup.map_on ?_ List.nodup_range
    intro i hi j hj heq
    have hilt := List.mem_range.mp hi
    have hjlt := List.mem_range.mp hj
    have hsum := SrtpStream.ivOf_inj hsalt (show first + i < 0x1000000000000 by omega)
      (show first + j < 0x1000000000000 by omega) heq
    omega
  · rw [List.pairwise_iff_getElem]
    intro i j hi hj hlt hlength hlength'
    rw [List.length_zip, List.length_map, List.length_range] at hi hj
    simp only [List.getElem_zip, List.getElem_map, List.getElem_range] at hlength hlength' ⊢
    exact SrtpStream.disjoint_counterBlocks hsalt (by omega) (by omega) (by omega) hlength hlength'

end

section Sample

/-- A keystream that repeats the vector, so that what is encrypted depends on it. -/
local instance sampleCryptoTools : CryptoTools :=
  { SrtpStream.sampleCryptoTools with
    aesCtrEncrypt := fun _ iv data => data.mapIdx fun i byte => byte ^^^ iv.getD (13 + i % 3) 0 }

def sampleFrame (byte : UInt8) : AudioPacker.PackerMessage := .packFrame ⟨some [byte, 7]⟩

/-- Two packets, with the highest number that a packer begins with. -/
def sampleMessages : List AudioPacker.PackerMessage :=
  [sampleFrame 1, sampleFrame 2, .tryGetFinishedAudioPacket, sampleFrame 1, sampleFrame 2,
    .tryGetFinishedAudioPacket]

def sampleAudioPackets : List EncodedAudioPacket :=
  AudioPacker.finishedPackets sampleMessages (AudioPacker.audioPacker 0xFFFF)

/-- The data of both packets is the same, and is not sent as the same. -/
theorem keystream_unique_sampleMessages :
    sampleAudioPackets.map (·.audioData) = [[1, 7, 2, 7], [1, 7, 2, 7]] ∧
      ((Method.runAll (sampleAudioPackets.map (send ⟨[], [], [], []⟩))
        SrtpStream.sampleStream).1.map fun sent => sent.toOption.map fun packet =>
          List.take 4 packet.payload) = [some [0xFA, 7, 2, 0xFC], some [5, 7, 2, 3]] ∧
      ∃ ivs : List NSData,
        (Method.runAll (sampleAudioPackets.map (send ⟨[], [], [], []⟩)) SrtpStream.sampleStream).1 =
          sampleAudioPackets.zipWith (sentUnder (List.replicate 16 1) [2, 3]) ivs ∧
        ivs.Nodup ∧
        (sampleAudioPackets.zip ivs).Pairwise fun p q =>
          p.1.audioData.length ≤ 0x100000 → q.1.audioData.length ≤ 0x100000 →
            (counterBlocks p.2 p.1.audioData.length).Disjoint
              (counterBlocks q.2 q.1.audioData.length) := by
  obtain ⟨ivs, -, hsent, hnodup, hblocks⟩ := keystream_unique ⟨[], [], [], []⟩
    SrtpStream.sampleStream_constructed 0xFFFF sampleMessages (by decide)
  exact ⟨rfl, by decide +kernel, ivs, hsent, hnodup, hblocks⟩

end Sample
end AudioSocket
end SignalIOS.Audio
