import SignalIOS.Audio.RemoteIOAudio
import SignalIOS.Audio.SpeexFrames

/-! `SpeexCodec`: recorded frames become packets of the same size, and any packet becomes a few frames
of samples. The streams of bits and the buffer of samples are used for one frame after the other. -/
namespace SignalIOS.Audio
open SignalIOS.Lib Speex

def maxFrames : ℕ := 512
def qualityParameter : ℤ := 3
def encodingBufferSizeInBytes : ℕ := frameSize * maxFrames

/-- The arithmetic of the codec, with the states `ε` of the encoder and `δ` of the decoder: what is
packed for a frame, and the samples for the numbers of a frame, for a frame without numbers and for
a frame that is missing. -/
structure SignalProcessing (ε δ : Type) where
  analyse : NSData → ε → FrameAnalysis × ε
  synthesize : ℕ → List UInt32 → δ → Vector Int16 frameSize × δ
  silence : δ → Vector Int16 frameSize × δ
  conceal : δ → Vector Int16 frameSize × δ

structure SpeexCodec (ε δ : Type) where
  decodingState : δ
  decodingBits : SpeexBits
  decodingBuffer : List Int16
  encodingState : ε
  encodingBits : SpeexBits
  cachedEncodedLength : ℕ

namespace SpeexCodec
variable {ε δ : Type}

def encode (p : SignalProcessing ε δ) (memory : Realloc) (rawData : NSData)
    (c : SpeexCodec ε δ) : Except Fault (Throws NSData × SpeexCodec ε δ) :=
  match owsRequire (rawData.length = decodedFrameSizeInBytes) with
  | .error e => .ok (.error e, c)
  | .ok () => do
    -- `encodeFields` is `speex_bits_reset`, the packing in `speex_encode_int`, and `speex_bits_write`.
    let (analysis, encodingState) := p.analyse rawData c.encodingState
    let (outputBuffer, encodingBits) ← c.encodingBits.encodeFields memory
      (nbEncode (submodeOfQuality qualityParameter) analysis) encodingBufferSizeInBytes
    let c := { c with encodingState, encodingBits }
    match checkOperation (outputBuffer.length > 0) with
    | .error e => return (.error e, c)
    | .ok () => return (.ok outputBuffer, c)

/-- A frame of samples goes into the buffer. -/
def putFrame (index : ℕ) (out : Vector Int16 frameSize × δ) (c : SpeexCodec ε δ) :
    Except Fault (SpeexCodec ε δ) :=
  if index + frameSize ≤ c.decodingBuffer.length then
    .ok
      { c with
        decodingState := out.2
        decodingBuffer := overwrite c.decodingBuffer index out.1.toList }
  else .error .outOfBounds

/-- `speex_decode_int`, which is `nb_decode`. Without a packet the frame is missing. -/
def speexDecodeInt (p : SignalProcessing ε δ) (hasBits : Bool) (index : ℕ)
    (c : SpeexCodec ε δ) : Except Fault (ℤ × SpeexCodec ε δ) :=
  if hasBits then do
    let (header, decodingBits) ← nbHeader (c.decodingBits.nbBits + 1) c.decodingBits
    match header with
    | .error ret => return (ret, { c with decodingBits })
    | .ok submodeID =>
      match submodes submodeID with
      | none =>
        let c ← putFrame index (p.silence c.decodingState) { c with decodingBits }
        return (0, c)
      | some m =>
        let (values, decodingBits) ← decodingBits.unpackFields (m.unpackFrame submodeID)
        let c ← putFrame index (p.synthesize submodeID values c.decodingState) { c with decodingBits }
        return (0, c)
  else do
    let c ← putFrame index (p.conceal c.decodingState) c
    return (0, c)

/-- The loop of `decodeSpeexBits`. The length that ends it is one in bytes, while the index counts
samples: there is room for two frames. -/
def decodeSpeexBits (p : SignalProcessing ε δ) (hasBits : Bool) :
    ℕ → ℕ → SpeexCodec ε δ → Except Fault (ℕ × SpeexCodec ε δ)
  | 0, _, _ => .error .endless
  | rounds + 1, index, c => do
    let (ret, c) ← c.speexDecodeInt p hasBits index
    if ret ≠ 0 then return (index, c)
    let index := index + frameSize
    if index + frameSize > decodedFrameSizeInBytes then return (index, c)
    if index + frameSize > frameSize * maxFrames then return (index, c)
    if hasBits = false then return (index, c)
    decodeSpeexBits p hasBits rounds index c

/-- Samples in memory, with the low byte in front. -/
def dataWithSamples (samples : List Int16) : NSData :=
  samples.flatMap fun sample => [sample.toUInt16.toUInt8, (sample.toUInt16 >>> (8 : UInt16)).toUInt8]

def decode (p : SignalProcessing ε δ) (memory : Realloc)
    (potentiallyMissingEncodedData : Option NSData) (c : SpeexCodec ε δ) :
    Except Fault (Option NSData × SpeexCodec ε δ) :=
  match potentiallyMissingEncodedData with
  | none => do
    let (decodedLength, c) ← c.decodeSpeexBits p false maxFrames 0
    return (some (dataWithSamples (c.decodingBuffer.take decodedLength)), c)
  | some encodedData =>
    if encodedData.length = 0 then .ok (none, c)
    else do
      let decodingBits ← c.decodingBits.readFrom memory encodedData
      let (decodedLength, c) ← { c with decodingBits }.decodeSpeexBits p true maxFrames 0
      return (some (dataWithSamples (c.decodingBuffer.take decodedLength)), c)

/-- `openSpeex`. The length of an encoded frame is that of silence. -/
def openSpeex (p : SignalProcessing ε δ) (encodingState : ε) (decodingState : δ)
    (decodingBuffer : Vector Int16 (frameSize * maxFrames)) :
    Except Fault (Throws (SpeexCodec ε δ)) := do
  let encodingBits ← SpeexBits.init
  let decodingBits ← SpeexBits.init
  let c : SpeexCodec ε δ :=
    { decodingState
      decodingBits
      decodingBuffer := decodingBuffer.toList
      encodingState
      encodingBits
      cachedEncodedLength := 0 }
  let (encoded, c) ← c.encode p none (List.replicate decodedFrameSizeInBytes 0)
  return encoded.map fun encoded => { c with cachedEncodedLength := encoded.length }

section Steps
variable {p : SignalProcessing ε δ} {c : SpeexCodec ε δ} {memory : Realloc}

/-- A stream of `init`, after any use of it. -/
structure Reusable (bits : SpeexBits) : Prop where
  readable : bits.Readable
  owner : bits.owner = true
  bufSize : SpeexBits.maxCharsPerFrame ≤ bits.bufSize

/-- A codec between two calls. -/
structure Ready (c : SpeexCodec ε δ) : Prop where
  encodingBits : Reusable c.encodingBits
  decodingBits : Reusable c.decodingBits
  decodingBuffer : c.decodingBuffer.length = frameSize * maxFrames

/-- What the decoding leaves alone. -/
def encoder (c : SpeexCodec ε δ) : ε × ℕ := (c.encodingState, c.cachedEncodedLength)

/-- What the encoder packs for a frame. -/
def packedFields (p : SignalProcessing ε δ) (rawData : NSData) (c : SpeexCodec ε δ) :
    List (UInt32 × ℕ) :=
  nbEncode (submodeOfQuality qualityParameter) (p.analyse rawData c.encodingState).1

theorem submodes_quality : submodes (submodeOfQuality qualityParameter) = some nbSubmode3 := rfl

theorem width_le (a : FrameAnalysis) :
    ∀ field ∈ nbEncode (submodeOfQuality qualityParameter) a, field.2 ≤ 32 := by
  have hwidths : ∀ width ∈ (nbEncode (submodeOfQuality qualityParameter) a).map Prod.snd,
      width ≤ 32 := by
    rw [unpackFrame_eq submodes_quality]
    decide
  intro field hfield
  exact hwidths field.2 (List.mem_map_of_mem hfield)

/-- A frame is encoded in twenty bytes, which are the numbers of the frame and nothing else. -/
theorem encode_spec (memory : Realloc) {rawData : NSData} (hc : c.Ready)
    (hlength : rawData.length = decodedFrameSizeInBytes) :
    ∃ encoded c', c.encode p memory rawData = .ok (.ok encoded, c') ∧ c'.Ready ∧
      c'.encodingState = (p.analyse rawData c.encodingState).2 ∧
      c'.decodingState = c.decodingState ∧
      c'.cachedEncodedLength = c.cachedEncodedLength ∧
      encoded.length = 20 ∧ bitString encoded = SpeexBits.bitsOfFields (packedFields p rawData c) := by
  have hbits := hc.encodingBits
  have htotal : SpeexBits.totalWidth (packedFields p rawData c) = 160 :=
    totalWidth_nbEncode submodes_quality _
  have hwidths : ∀ field ∈ packedFields p rawData c, field.2 ≤ 32 := width_le _
  have hmemory : SpeexBits.Affords memory (SpeexBits.totalWidth (packedFields p rawData c)) := by
    right
    rw [htotal]
    decide
  have hmax : SpeexBits.totalWidth (packedFields p rawData c) ≤ 8 * encodingBufferSizeInBytes := by
    rw [htotal]
    decide
  obtain ⟨encoded, encodingBits, hencode, hr, howner, hsize, _, hstream⟩ :=
    SpeexBits.encodeFields_spec hbits.readable hbits.owner hbits.bufSize hwidths hmemory hmax
  rw [htotal] at hstream
  have hbytes : encoded.length = 20 := by
    have hcount := congrArg List.length hstream
    rw [bitString, length_bitsFrom, List.length_append, SpeexBits.length_bitsOfFields, htotal]
      at hcount
    change 8 * encoded.length = 160 + 0 at hcount
    omega
  have hsome : checkOperation (encoded.length > 0) = .ok () := by simp [hbytes]
  refine ⟨encoded, { c with
    encodingState := (p.analyse rawData c.encodingState).2, encodingBits }, ?_,
    ⟨⟨hr, howner, hsize⟩, hc.decodingBits, hc.decodingBuffer⟩, rfl, rfl, rfl, hbytes, ?_⟩
  · have hrequire : owsRequire (rawData.length = decodedFrameSizeInBytes) = .ok () := by
      simp [hlength]
    rw [packedFields] at hencode
    rw [encode, hrequire]
    simp only [hencode, SpeexBits.ok_bind, hsome]
    rfl
  · rw [hstream]
    exact List.append_nil _

/-- Something else than a frame is refused. -/
theorem encode_of_ne (memory : Realloc) {rawData : NSData}
    (hlength : rawData.length ≠ decodedFrameSizeInBytes) :
    c.encode p memory rawData = .ok (.error .badArgument, c) := by
  have hrequire : owsRequire (rawData.length = decodedFrameSizeInBytes) = .error .badArgument :=
    if_neg hlength
  rw [encode, hrequire]

theorem putFrame_spec {index : ℕ} (out : Vector Int16 frameSize × δ) (hc : c.Ready)
    (hindex : index + frameSize ≤ frameSize * maxFrames) :
    ∃ c', putFrame index out c = .ok c' ∧ c'.Ready ∧ c'.decodingState = out.2 ∧
      c'.decodingBits = c.decodingBits ∧ c'.encoder = c.encoder ∧
      c'.decodingBuffer.take (index + frameSize) = c.decodingBuffer.take index ++ out.1.toList := by
  have hin : index + out.1.toList.length ≤ c.decodingBuffer.length := by
    rw [hc.decodingBuffer, Vector.length_toList]
    exact hindex
  refine ⟨_, if_pos (hc.decodingBuffer ▸ hindex), ⟨hc.encodingBits, hc.decodingBits, ?_⟩, rfl, rfl,
    rfl, ?_⟩
  · exact (length_overwrite hin).trans hc.decodingBuffer
  · have hlength : (c.decodingBuffer.take index).length = index :=
      List.length_take_of_le (by omega)
    have hfront : (c.decodingBuffer.take index ++ out.1.toList).length = index + frameSize := by
      rw [List.length_append, hlength, Vector.length_toList]
    rw [overwrite, ← hfront, List.take_left]

/-- Decoding ends with a frame, or without one, whatever the stream holds. -/
theorem speexDecodeInt_spec (p : SignalProcessing ε δ) (hasBits : Bool) {index : ℕ} (hc : c.Ready)
    (hindex : index + frameSize ≤ frameSize * maxFrames) :
    ∃ ret c', c.speexDecodeInt p hasBits index = .ok (ret, c') ∧ c'.Ready ∧
      (hasBits = false → ret = 0) ∧ c'.encoder = c.encoder := by
  unfold speexDecodeInt
  cases hasBits with
  | false =>
    obtain ⟨c', hput, hc', _, _, hencoder, _⟩ :=
      putFrame_spec (p.conceal c.decodingState) hc hindex
    refine ⟨0, c', ?_, hc', fun _ => rfl, hencoder⟩
    simp only [Bool.false_eq_true, ↓reduceIte]
    rw [hput]
    rfl
  | true =>
    have hbits := hc.decodingBits
    have hrounds : c.decodingBits.nbBits - c.decodingBits.position < c.decodingBits.nbBits + 1 := by
      omega
    obtain ⟨header, found, hheader, hr, howner, hsize, _⟩ :=
      ReadOn.nbHeader hbits.readable hrounds
    have hfound : Reusable found :=
      ⟨hr, howner.trans hbits.owner, hbits.bufSize.trans hsize.ge⟩
    have hready : ({ c with decodingBits := found } : SpeexCodec ε δ).Ready :=
      ⟨hc.encodingBits, hfound, hc.decodingBuffer⟩
    simp only [↓reduceIte]
    rw [hheader, SpeexBits.ok_bind]
    cases header with
    | error ret => exact ⟨ret, _, rfl, hready, by rintro ⟨⟩, rfl⟩
    | ok submodeID =>
      cases hmode : submodes submodeID with
      | none =>
        obtain ⟨c', hput, hc', _, _, hencoder, _⟩ :=
          putFrame_spec (p.silence c.decodingState) hready hindex
        refine ⟨0, c', ?_, hc', fun _ => rfl, hencoder⟩
        simp only [hmode]
        rw [hput]
        rfl
      | some m =>
        obtain ⟨values, read, hread, hon⟩ :=
          (ReadOn.refl hr).unpackFields (m.unpackFrame submodeID)
        have hready' : ({ c with decodingBits := read } : SpeexCodec ε δ).Ready :=
          ⟨hc.encodingBits, ⟨hon.readable, hon.owner.trans hfound.owner,
            hfound.bufSize.trans hon.bufSize.ge⟩, hc.decodingBuffer⟩
        obtain ⟨c', hput, hc', _, _, hencoder, _⟩ :=
          putFrame_spec (p.synthesize submodeID values c.decodingState) hready' hindex
        refine ⟨0, c', ?_, hc', fun _ => rfl, hencoder⟩
        simp only [hmode]
        rw [hread, SpeexBits.ok_bind]
        simp only
        rw [hput]
        rfl

/-- The loop ends behind two frames at the latest, and behind the one that is missing. -/
theorem decodeSpeexBits_spec (p : SignalProcessing ε δ) (hasBits : Bool) (hc : c.Ready) :
    ∃ decodedLength c', c.decodeSpeexBits p hasBits maxFrames 0 = .ok (decodedLength, c') ∧
      c'.Ready ∧ decodedLength ∈ [0, frameSize, 2 * frameSize] ∧
      (hasBits = false → decodedLength = frameSize) ∧
      c'.encoder = c.encoder := by
  have hone : 0 + frameSize ≤ frameSize * maxFrames := by decide
  have htwo : (0 + frameSize) + frameSize ≤ frameSize * maxFrames := by decide
  obtain ⟨ret, c₁, hfirst, hc₁, hmissing, hencoder⟩ := speexDecodeInt_spec p hasBits hc hone
  rw [maxFrames, decodeSpeexBits, hfirst, SpeexBits.ok_bind]
  simp only
  by_cases hret : ret ≠ 0
  · rw [if_pos hret]
    exact ⟨0, c₁, rfl, hc₁, by simp, fun h => absurd (hmissing h) hret, hencoder⟩
  · rw [if_neg hret, if_neg (by decide), if_neg (by decide)]
    cases hasBits with
    | false => exact ⟨frameSize, c₁, rfl, hc₁, by simp, fun _ => rfl, hencoder⟩
    | true =>
      obtain ⟨ret', c₂, hsecond, hc₂, _, hencoder'⟩ := speexDecodeInt_spec p true hc₁ htwo
      rw [if_neg (by decide), decodeSpeexBits, hsecond, SpeexBits.ok_bind]
      simp only
      by_cases hret' : ret' ≠ 0
      · rw [if_pos hret']
        exact ⟨frameSize, c₂, rfl, hc₂, by simp, by rintro ⟨⟩, hencoder'.trans hencoder⟩
      · rw [if_neg hret', if_pos (by decide)]
        exact ⟨2 * frameSize, c₂, rfl, hc₂, by simp, by rintro ⟨⟩, hencoder'.trans hencoder⟩

theorem length_dataWithSamples (samples : List Int16) :
    (dataWithSamples samples).length = 2 * samples.length := by
  induction samples with
  | nil => rfl
  | cons sample samples ih =>
    rw [dataWithSamples] at ih
    rw [dataWithSamples, List.flatMap_cons, List.length_append, ih, List.length_cons]
    exact Nat.add_comm 2 _

theorem decode_spec (p : SignalProcessing ε δ) (memory : Realloc) (data : Option NSData)
    (hc : c.Ready) :
    ∃ result c', c.decode p memory data = .ok (result, c') ∧ c'.Ready ∧
      (result = none ↔ data = some []) ∧
      (∀ samples ∈ result, samples.length ∈
        [0, decodedFrameSizeInBytes, 2 * decodedFrameSizeInBytes]) ∧
      (data = none → ∀ samples ∈ result, samples.length = decodedFrameSizeInBytes) ∧
      c'.encoder = c.encoder := by
  have hframes : ∀ {decodedLength : ℕ} {c' : SpeexCodec ε δ}, c'.Ready →
      decodedLength ∈ [0, frameSize, 2 * frameSize] →
      (dataWithSamples (c'.decodingBuffer.take decodedLength)).length = 2 * decodedLength := by
    intro decodedLength c' hc' hmem
    have hle : decodedLength ≤ frameSize * maxFrames := by
      have hall : ∀ n ∈ [0, frameSize, 2 * frameSize], n ≤ frameSize * maxFrames := by decide
      exact hall decodedLength hmem
    rw [length_dataWithSamples, List.length_take_of_le (hc'.decodingBuffer ▸ hle)]
  have hsizes : ∀ n ∈ [0, frameSize, 2 * frameSize],
      2 * n ∈ [0, decodedFrameSizeInBytes, 2 * decodedFrameSizeInBytes] := by decide
  cases data with
  | none =>
    obtain ⟨decodedLength, c', hloop, hc', hmem, hmissing, hencoder⟩ := decodeSpeexBits_spec p false hc
    refine ⟨some (dataWithSamples (c'.decodingBuffer.take decodedLength)), c', ?_, hc', by simp,
      ?_, ?_, hencoder⟩
    · rw [decode, hloop, SpeexBits.ok_bind]
      rfl
    · rintro _ ⟨⟩
      rw [hframes hc' hmem]
      exact hsizes decodedLength hmem
    · rintro _ _ ⟨⟩
      rw [hframes hc' hmem, hmissing rfl]
      rfl
  | some encodedData =>
    by_cases hempty : encodedData.length = 0
    · have hnil : encodedData = [] := List.length_eq_zero_iff.mp hempty
      refine ⟨none, c, ?_, hc, by simp [hnil], by simp, by simp, rfl⟩
      rw [decode, if_pos hempty]
    · have hbits := hc.decodingBits
      obtain ⟨_, loaded, hread, hr, _, _, _, howner, hgrown, _⟩ :=
        SpeexBits.readFrom_spec memory encodedData hbits.readable.sound
      have hready : ({ c with decodingBits := loaded } : SpeexCodec ε δ).Ready :=
        ⟨hc.encodingBits, ⟨hr, howner.trans hbits.owner, hbits.bufSize.trans hgrown⟩,
          hc.decodingBuffer⟩
      obtain ⟨decodedLength, c', hloop, hc', hmem, _, hencoder⟩ := decodeSpeexBits_spec p true hready
      have hne : encodedData ≠ [] := fun hnil => hempty (by rw [hnil]; rfl)
      refine ⟨some (dataWithSamples (c'.decodingBuffer.take decodedLength)), c', ?_, hc',
        by simp [hne], ?_, by simp, hencoder⟩
      · rw [decode, if_neg hempty, hread, SpeexBits.ok_bind, hloop, SpeexBits.ok_bind]
        rfl
      · rintro _ ⟨⟩
        rw [hframes hc' hmem]
        exact hsizes decodedLength hmem

/-- The frame of a packet that the encoder has made: its numbers go into the synthesis, and the
samples come out. -/
theorem decode_of_stream (p : SignalProcessing ε δ) (memory : Realloc) {encoded : NSData}
    {a : FrameAnalysis} (hc : c.Ready) (hlength : encoded.length = 20)
    (hstream : bitString encoded =
      SpeexBits.bitsOfFields (nbEncode (submodeOfQuality qualityParameter) a)) :
    ∃ c', c.decode p memory (some encoded) =
        .ok (some (dataWithSamples (p.synthesize 3
          (((nbEncode (submodeOfQuality qualityParameter) a).drop 2).map SpeexBits.fitField)
          c.decodingState).1.toList), c') ∧
      c'.Ready ∧ c'.decodingState = (p.synthesize 3
        (((nbEncode (submodeOfQuality qualityParameter) a).drop 2).map SpeexBits.fitField)
        c.decodingState).2 ∧
      c'.encoder = c.encoder := by
  have hbits := hc.decodingBits
  obtain ⟨nchars, loaded, hread, hr, hposition, hoverflow, hnbBits, howner, hgrown, _, hcount,
    hsame⟩ := SpeexBits.readFrom_spec memory encoded hbits.readable.sound
  have hroom := hbits.bufSize
  have hall : nchars = 20 := by
    rcases hcount with hall | ⟨_, _, hlarge⟩
    · exact hall.trans hlength
    · rw [hlength] at hlarge
      have hmax : SpeexBits.maxCharsPerFrame = 2000 := rfl
      omega
  have hframe : bitsFrom loaded.chars loaded.position nbSubmode3.bitsPerFrame =
      SpeexBits.bitsOfFields (nbEncode (submodeOfQuality qualityParameter) a) := by
    rw [← hstream, bitString, hlength, hposition]
    apply bitsFrom_congr
    intro i hi
    have hi' : i < 160 := hi
    exact hsame _ (by omega)
  have hcount' : loaded.position + nbSubmode3.bitsPerFrame = 160 := by
    rw [hposition]
    rfl
  obtain ⟨found, hheader, hvalues⟩ :=
    decode_of_frame loaded.nbBits submodes_quality a hr hoverflow (by omega) hframe
  rw [hcount'] at hvalues
  generalize ((nbEncode (submodeOfQuality qualityParameter) a).drop 2).map SpeexBits.fitField =
    values at hvalues ⊢
  have hend : (loaded.seek 160).Readable := SpeexBits.readable_seek hr (by omega)
  have hready : ({ c with decodingBits := loaded.seek 160 } : SpeexCodec ε δ).Ready :=
    ⟨hc.encodingBits, ⟨hend, howner.trans hbits.owner, hroom.trans hgrown⟩, hc.decodingBuffer⟩
  have hone : 0 + frameSize ≤ frameSize * maxFrames := by decide
  obtain ⟨c₁, hput, hc₁, hstate, hstream₁, hencoder, hsamples⟩ :=
    putFrame_spec (p.synthesize 3 values c.decodingState) hready hone
  have hfirst : ({ c with decodingBits := loaded } : SpeexCodec ε δ).speexDecodeInt p true 0 =
      .ok (0, c₁) := by
    have hquality : submodeOfQuality qualityParameter = 3 := rfl
    rw [hquality] at hheader hvalues
    unfold speexDecodeInt
    simp only [↓reduceIte]
    rw [hheader, SpeexBits.ok_bind]
    simp only [show submodes 3 = some nbSubmode3 from rfl]
    rw [hvalues, SpeexBits.ok_bind]
    simp only
    rw [hput]
    rfl
  have hremaining : c₁.decodingBits.remaining < 5 := by
    have hover : (loaded.seek 160).overflow = false := hoverflow
    have hplace := SpeexBits.position_seek 160 loaded
    have hcount₁ : (loaded.seek 160).nbBits = loaded.nbBits := rfl
    rw [hstream₁, SpeexBits.remaining, hover, hplace, hcount₁, hnbBits, hall]
    decide
  have hsecond : c₁.speexDecodeInt p true (0 + frameSize) = .ok (-1, c₁) := by
    unfold speexDecodeInt
    simp only [↓reduceIte]
    rw [nbHeader_of_end hremaining, SpeexBits.ok_bind]
    rfl
  refine ⟨c₁, ?_, hc₁, hstate, hencoder⟩
  have hne : ¬ encoded.length = 0 := by omega
  rw [decode, if_neg hne, hread, SpeexBits.ok_bind, maxFrames, decodeSpeexBits, hfirst,
    SpeexBits.ok_bind]
  simp only
  rw [if_neg (by decide), if_neg (by decide), if_neg (by decide), if_neg (by decide),
    decodeSpeexBits, hsecond, SpeexBits.ok_bind]
  simp only
  rw [if_pos (by decide)]
  rw [Nat.zero_add, List.take_zero, List.nil_append] at hsamples
  change Except.ok (some (dataWithSamples (c₁.decodingBuffer.take (0 + frameSize))), c₁) = _
  rw [Nat.zero_add, hsamples]

theorem openSpeex_spec (p : SignalProcessing ε δ) (encodingState : ε) (decodingState : δ)
    (decodingBuffer : Vector Int16 (frameSize * maxFrames)) :
    ∃ c, openSpeex p encodingState decodingState decodingBuffer = .ok (.ok c) ∧ c.Ready ∧
      c.encodingState = (p.analyse (List.replicate decodedFrameSizeInBytes 0) encodingState).2 ∧
      c.decodingState = decodingState ∧ c.cachedEncodedLength = 20 := by
  obtain ⟨bits, hinit, hr, howner, hsize, _⟩ := SpeexBits.init_readable
  have hbits : Reusable bits := ⟨hr, howner, hsize.ge⟩
  have hready : SpeexCodec.Ready (ε := ε) (δ := δ)
      { decodingState
        decodingBits := bits
        decodingBuffer := decodingBuffer.toList
        encodingState
        encodingBits := bits
        cachedEncodedLength := 0 } := ⟨hbits, hbits, Vector.length_toList⟩
  obtain ⟨encoded, c, hencode, hc, hencoding, hdecoding, _, hlength, _⟩ :=
    encode_spec (p := p) none hready (List.length_replicate (n := decodedFrameSizeInBytes) (a := 0))
  refine ⟨{ c with cachedEncodedLength := encoded.length }, ?_,
    ⟨hc.encodingBits, hc.decodingBits, hc.decodingBuffer⟩, hencoding, hdecoding, hlength⟩
  rw [openSpeex, hinit, SpeexBits.ok_bind, SpeexBits.ok_bind]
  simp only
  rw [hencode, SpeexBits.ok_bind]
  rfl

theorem ready_of_openSpeex {encodingState : ε} {decodingState : δ}
    {decodingBuffer : Vector Int16 (frameSize * maxFrames)}
    (hopen : openSpeex p encodingState decodingState decodingBuffer = .ok (.ok c)) :
    c.Ready ∧ c.cachedEncodedLength = 20 := by
  obtain ⟨c', hopen', hready, _, _, hlength⟩ :=
    openSpeex_spec p encodingState decodingState decodingBuffer
  rw [hopen] at hopen'
  obtain rfl : c = c' := Except.ok.inj (Except.ok.inj hopen')
  exact ⟨hready, hlength⟩

end Steps

/-- What the audio processor does with a codec. -/
inductive Event
  | encode (memory : Realloc) (rawData : NSData)
  | decode (memory : Realloc) (data : Option NSData)

def step (p : SignalProcessing ε δ) :
    Except Fault (SpeexCodec ε δ) → Event → Option (Except Fault (SpeexCodec ε δ))
  | .error _, _ => none
  | .ok c, .encode memory rawData => some (Prod.snd <$> c.encode p memory rawData)
  | .ok c, .decode memory data => some (Prod.snd <$> c.decode p memory data)

def machine (p : SignalProcessing ε δ) (opened : SpeexCodec ε δ) :
    Machine (Except Fault (SpeexCodec ε δ)) Event where
  init := .ok opened
  step := step p

section Runs
variable {ε' δ' : Type} {p : SignalProcessing ε δ} {p' : SignalProcessing ε' δ'}
  {c opened : SpeexCodec ε δ} {opened' : SpeexCodec ε' δ'}

/-- The codec is ready after any calls, and says the same length of a frame. -/
theorem ready_of_run {tr : History (Except Fault (SpeexCodec ε δ)) Event} (hready : opened.Ready)
    (h : (machine p opened).Run tr) :
    ∃ c, (machine p opened).last tr = .ok c ∧ c.Ready ∧
      c.cachedEncodedLength = opened.cachedEncodedLength := by
  refine h.state_invariant (I := fun s => ∃ c, s = .ok c ∧ c.Ready ∧
    c.cachedEncodedLength = opened.cachedEncodedLength) ⟨opened, rfl, hready, rfl⟩ ?_
  rintro _ e s' ⟨c, rfl, hc, hcached⟩ hstep
  cases e with
  | encode memory rawData =>
    have hs' : Prod.snd <$> c.encode p memory rawData = s' := Option.some.inj hstep
    by_cases hlength : rawData.length = decodedFrameSizeInBytes
    · obtain ⟨_, c', hencode, hc', _, _, hcached', _⟩ := encode_spec (p := p) memory hc hlength
      rw [hencode] at hs'
      exact ⟨c', hs'.symm, hc', hcached'.trans hcached⟩
    · rw [encode_of_ne memory hlength] at hs'
      exact ⟨c, hs'.symm, hc, hcached⟩
  | decode memory data =>
    have hs' : Prod.snd <$> c.decode p memory data = s' := Option.some.inj hstep
    obtain ⟨_, c', hdecode, hc', _, _, _, hencoder⟩ := decode_spec p memory data hc
    rw [hdecode] at hs'
    exact ⟨c', hs'.symm, hc', (congrArg Prod.snd hencoder).trans hcached⟩

/-- Any packet that comes in is decoded, at any time in a call: nothing is read outside of it or
written outside of the buffer, and what comes out are two frames at most. -/
theorem decode_of_run {encodingState : ε} {decodingState : δ}
    {decodingBuffer : Vector Int16 (frameSize * maxFrames)}
    {tr : History (Except Fault (SpeexCodec ε δ)) Event}
    (hopen : openSpeex p encodingState decodingState decodingBuffer = .ok (.ok opened))
    (h : (machine p opened).Run tr) (memory : Realloc) (data : Option NSData) :
    ∃ c, (machine p opened).last tr = .ok c ∧
      ∃ result c', c.decode p memory data = .ok (result, c') ∧
        (result = none ↔ data = some []) ∧
        (∀ samples ∈ result, samples.length ∈
          [0, decodedFrameSizeInBytes, 2 * decodedFrameSizeInBytes]) ∧
        (data = none → ∀ samples ∈ result, samples.length = decodedFrameSizeInBytes) := by
  obtain ⟨c, hlast, hc, _⟩ := ready_of_run (ready_of_openSpeex hopen).1 h
  obtain ⟨result, c', hdecode, _, hnone, hsizes, hmissing, _⟩ := decode_spec p memory data hc
  exact ⟨c, hlast, result, c', hdecode, hnone, hsizes, hmissing⟩

/-- A ready codec may be used in any way. -/
theorem exists_run (p : SignalProcessing ε δ) (hready : opened.Ready) (es : List Event) :
    ∃ tr, (machine p opened).Run tr ∧ tr.map Prod.fst = es := by
  induction es with
  | nil => exact ⟨[], trivial, rfl⟩
  | cons e es ih =>
    obtain ⟨tr, hrun, hevents⟩ := ih
    obtain ⟨c, hlast, _⟩ := ready_of_run hready hrun
    have hstep : ∃ s, (machine p opened).step ((machine p opened).last tr) e = some s := by
      rw [hlast]
      cases e <;> exact ⟨_, rfl⟩
    obtain ⟨s, hstep⟩ := hstep
    exact ⟨(e, s) :: tr, ⟨hrun, hstep⟩, congrArg (e :: ·) hevents⟩

/-- One tone in a frame, of which the pitch says by how much it is above that of the frame before. -/
def humming : SignalProcessing UInt32 UInt32 where
  analyse rawData level :=
    let next := (rawData.headD 0).toUInt32
    ({ lspIds := fun _ => 0
       olPitch := 0
       pitchGain := 0
       olGain := 0
       subframe := fun _ =>
         { pitch := next - level
           gainIndex := 0
           energy := 0
           innovation := fun _ => 0
           secondInnovation := fun _ => 0 }
       dtxCount := 0 }, next)
  synthesize _ numbers level :=
    let next := (level + numbers.getD 4 0) &&& 127
    (Vector.replicate frameSize next.toUInt16.toInt16, next)
  silence _ := (Vector.replicate frameSize 0, 0)
  conceal level := (Vector.replicate frameSize level.toUInt16.toInt16, level)

/-- A frame of one tone. -/
def tone (level : Int16) : NSData := dataWithSamples (List.replicate frameSize level)

theorem length_tone (level : Int16) : (tone level).length = decodedFrameSizeInBytes := by
  rw [tone, length_dataWithSamples, List.length_replicate]
  rfl

/-- A layer for wideband and an in-band request, in front of a silent frame and the terminator. -/
def searched : NSData := [0x90, 0, 0, 0, 0x07, 0, 0x0F]

example : ((SpeexBits.init >>= SpeexBits.readFrom none searched) >>= nbHeader 57).map Prod.fst =
    .ok (.ok 0) := by decide +kernel

/-- In the middle of a call. Before, a frame has been refused, and bytes came in that were no
frame. -/
theorem decode_of_garbage : ∃ opened tr,
    openSpeex humming 0 0 (Vector.replicate (frameSize * maxFrames) 0) = .ok (.ok opened) ∧
    tr.map Prod.fst = [.decode none (some [0xFF, 3]), .encode none (tone 20), .decode none none,
      .encode none [1], .encode none (tone 9)] ∧
    ∃ c, (machine humming opened).last tr = .ok c ∧
      ∃ result c', c.decode humming none (some searched) = .ok (result, c') ∧
        (result = none ↔ some searched = some []) ∧
        (∀ samples ∈ result, samples.length ∈
          [0, decodedFrameSizeInBytes, 2 * decodedFrameSizeInBytes]) ∧
        (some searched = none → ∀ samples ∈ result, samples.length = decodedFrameSizeInBytes) := by
  obtain ⟨opened, hopen, hready, _⟩ :=
    openSpeex_spec humming 0 0 (Vector.replicate (frameSize * maxFrames) 0)
  obtain ⟨tr, hrun, hevents⟩ := exists_run humming hready
    [.decode none (some [0xFF, 3]), .encode none (tone 20), .decode none none, .encode none [1],
      .encode none (tone 9)]
  exact ⟨opened, tr, hopen, hevents, decode_of_run hopen hrun none (some searched)⟩

def encodeAll (p : SignalProcessing ε δ) (memory : Realloc) :
    List NSData → SpeexCodec ε δ → Except Fault (List (Throws NSData) × SpeexCodec ε δ)
  | [], c => .ok ([], c)
  | rawData :: rest, c => do
    let (result, c) ← c.encode p memory rawData
    let (results, c) ← encodeAll p memory rest c
    return (result :: results, c)

def decodeAll (p : SignalProcessing ε δ) (memory : Realloc) :
    List (Option NSData) → SpeexCodec ε δ → Except Fault (List (Option NSData) × SpeexCodec ε δ)
  | [], c => .ok ([], c)
  | data :: rest, c => do
    let (result, c) ← c.decode p memory data
    let (results, c) ← decodeAll p memory rest c
    return (result :: results, c)

/-- The numbers of frames, as the encoder finds them one frame after the other. -/
def spokenNumbers (p : SignalProcessing ε δ) : List NSData → ε → List (List UInt32)
  | [], _ => []
  | rawData :: rest, s =>
    ((nbEncode (submodeOfQuality qualityParameter) (p.analyse rawData s).1).drop 2).map
      SpeexBits.fitField :: spokenNumbers p rest (p.analyse rawData s).2

/-- The samples that are synthesized of the numbers of frames. -/
def heardSamples (p : SignalProcessing ε δ) : List (List UInt32) → δ → List NSData
  | [], _ => []
  | numbers :: rest, s =>
    dataWithSamples (p.synthesize (submodeOfQuality qualityParameter) numbers s).1.toList ::
      heardSamples p rest (p.synthesize (submodeOfQuality qualityParameter) numbers s).2

theorem decodeAll_of_encodeAll {c' : SpeexCodec ε' δ'} (p : SignalProcessing ε δ)
    (p' : SignalProcessing ε' δ') (memory memory' : Realloc) {frames : List NSData} (hc : c.Ready)
    (hc' : c'.Ready) (hframes : ∀ rawData ∈ frames, rawData.length = decodedFrameSizeInBytes) :
    ∃ (packets : List NSData) (d : SpeexCodec ε δ) (d' : SpeexCodec ε' δ'),
      encodeAll p memory frames c = .ok (packets.map .ok, d) ∧
      (∀ packet ∈ packets, packet.length = 20) ∧
      decodeAll p' memory' (packets.map some) c' =
        .ok ((heardSamples p' (spokenNumbers p frames c.encodingState) c'.decodingState).map some,
          d') := by
  induction frames generalizing c c' with
  | nil => exact ⟨[], c, c', rfl, by simp, rfl⟩
  | cons rawData frames ih =>
    obtain ⟨packet, next, hencode, hnext, hstate, _, _, hlength, hstream⟩ :=
      encode_spec (p := p) memory hc (hframes rawData (by simp))
    obtain ⟨next', hdecode, hnext', hstate', _⟩ :=
      decode_of_stream p' memory' hc' hlength hstream
    obtain ⟨packets, d, d', hencodeAll, hlengths, hdecodeAll⟩ :=
      ih hnext hnext' fun rawData' h => hframes rawData' (List.mem_cons_of_mem _ h)
    refine ⟨packet :: packets, d, d', ?_, ?_, ?_⟩
    · rw [encodeAll, hencode, SpeexBits.ok_bind]
      simp only
      rw [hencodeAll, SpeexBits.ok_bind]
      rfl
    · intro packet' hmem
      rcases List.mem_cons.mp hmem with rfl | hmem
      · exact hlength
      · exact hlengths packet' hmem
    · rw [List.map_cons, decodeAll, hdecode, SpeexBits.ok_bind]
      simp only
      rw [hdecodeAll, SpeexBits.ok_bind, hstate, hstate']
      rfl

/-- One side speaks and the other side hears it, from any time in a call on: each frame is sent in as
many bytes as `encodedFrameSizeInBytes` says, and the decoder synthesizes one frame of each packet,
from the numbers that the encoder has found. -/
theorem heard_of_run {encodingState : ε} {decodingState : δ} {encodingState' : ε'}
    {decodingState' : δ'} {decodingBuffer decodingBuffer' : Vector Int16 (frameSize * maxFrames)}
    {tr : History (Except Fault (SpeexCodec ε δ)) Event}
    {tr' : History (Except Fault (SpeexCodec ε' δ')) Event} {frames : List NSData}
    (hopen : openSpeex p encodingState decodingState decodingBuffer = .ok (.ok opened))
    (hopen' : openSpeex p' encodingState' decodingState' decodingBuffer' = .ok (.ok opened'))
    (h : (machine p opened).Run tr) (h' : (machine p' opened').Run tr')
    (hframes : ∀ rawData ∈ frames, rawData.length = decodedFrameSizeInBytes)
    (memory memory' : Realloc) :
    ∃ c c', (machine p opened).last tr = .ok c ∧ (machine p' opened').last tr' = .ok c' ∧
      ∃ (packets : List NSData) (d : SpeexCodec ε δ) (d' : SpeexCodec ε' δ'),
      encodeAll p memory frames c = .ok (packets.map .ok, d) ∧
        (∀ packet ∈ packets, packet.length = c.cachedEncodedLength) ∧
        decodeAll p' memory' (packets.map some) c' =
          .ok ((heardSamples p' (spokenNumbers p frames c.encodingState) c'.decodingState).map some,
            d') := by
  obtain ⟨hready, hlength⟩ := ready_of_openSpeex hopen
  obtain ⟨hready', _⟩ := ready_of_openSpeex hopen'
  obtain ⟨c, hlast, hc, hcached⟩ := ready_of_run hready h
  obtain ⟨c', hlast', hc', _⟩ := ready_of_run hready' h'
  obtain ⟨packets, d, d', hencode, hlengths, hdecode⟩ :=
    decodeAll_of_encodeAll p p' memory memory' hc hc' hframes
  refine ⟨c, c', hlast, hlast', packets, d, d', hencode, ?_, hdecode⟩
  intro packet hmem
  rw [hlengths packet hmem, hcached, hlength]

/-- The speaker has hummed before, and has been listening. The listener, who has hummed too, has
heard the first tone of the speaker. -/
theorem heard_of_humming : ∃ opened tr tr' packet,
    openSpeex humming 0 0 (Vector.replicate (frameSize * maxFrames) 0) = .ok (.ok opened) ∧
    tr.map Prod.fst = [.decode none (some searched), .encode none (tone 9)] ∧
    tr'.map Prod.fst = [.decode none (some packet), .encode none (tone 50)] ∧
    ∃ c c', (machine humming opened).last tr = .ok c ∧ (machine humming opened).last tr' = .ok c' ∧
      ∃ (packets : List NSData) (d d' : SpeexCodec UInt32 UInt32),
        encodeAll humming none [tone 20, tone 7, tone 100] c = .ok (packets.map .ok, d) ∧
        (∀ packet ∈ packets, packet.length = c.cachedEncodedLength) ∧
        decodeAll humming none (packets.map some) c' =
          .ok ([some (tone 20), some (tone 7), some (tone 100)], d') := by
  obtain ⟨opened, hopen, hready, hencoding, hdecoding, _⟩ :=
    openSpeex_spec humming 0 0 (Vector.replicate (frameSize * maxFrames) 0)
  obtain ⟨packet, c₁, hencode, hc₁, hlevel, _, _, hlength, hstream⟩ :=
    encode_spec (p := humming) none hready (length_tone 9)
  obtain ⟨_, c, hdecode, _, _, _, _, hencoder⟩ := decode_spec humming none (some searched) hc₁
  obtain ⟨_, c₁', hencode', hc₁', _, hdecoding', _⟩ :=
    encode_spec (p := humming) none hready (length_tone 50)
  obtain ⟨c', hdecode', _, hlevel', _⟩ := decode_of_stream humming none hc₁' hlength hstream
  have hframes : ∀ rawData ∈ [tone 20, tone 7, tone 100],
      rawData.length = decodedFrameSizeInBytes := by
    simp [length_tone]
  have hrun : (machine humming opened).Run
      [(.decode none (some searched), .ok c), (.encode none (tone 9), .ok c₁)] := by
    refine ⟨⟨trivial, ?_⟩, ?_⟩
    · exact congrArg (fun out => some (Prod.snd <$> out)) hencode
    · exact congrArg (fun out => some (Prod.snd <$> out)) hdecode
  have hrun' : (machine humming opened).Run
      [(.decode none (some packet), .ok c'), (.encode none (tone 50), .ok c₁')] := by
    refine ⟨⟨trivial, ?_⟩, ?_⟩
    · exact congrArg (fun out => some (Prod.snd <$> out)) hencode'
    · exact congrArg (fun out => some (Prod.snd <$> out)) hdecode'
  obtain ⟨c₂, c₂', hlast, hlast', packets, d, d', hencodeAll, hlengths, hdecodeAll⟩ :=
    heard_of_run hopen hopen hrun hrun' hframes none none
  obtain rfl : c = c₂ := Except.ok.inj hlast
  obtain rfl : c' = c₂' := Except.ok.inj hlast'
  have hspeaker : c.encodingState = 9 := (congrArg Prod.fst hencoder).trans hlevel
  have hlistener : c'.decodingState = 9 := by
    rw [hlevel', hdecoding', hdecoding, hencoding]
    decide +kernel
  rw [hspeaker, hlistener] at hdecodeAll
  have hheard : heardSamples humming (spokenNumbers humming [tone 20, tone 7, tone 100] 9) 9 =
      [tone 20, tone 7, tone 100] := by decide +kernel
  rw [hheard] at hdecodeAll
  exact ⟨opened, _, _, packet, hopen, rfl, rfl, c, c', hlast, hlast', packets, d, d', hencodeAll,
    hlengths, hdecodeAll⟩

end Runs

end SpeexCodec
end SignalIOS.Audio
