import SignalIOS.Audio.SpeexStreams

/-! The frames of the narrowband speech codec: which numbers the encoder packs and in which order the
decoder reads them, and how the decoder finds the next frame in a packet. The signal processing that
comes up with the numbers, and turns them into samples, is left to the callers. -/
namespace SignalIOS.Audio.Speex
open SignalIOS.Lib

structure LtpParams where
  gainBits : ℕ
  pitchBits : ℕ
  deriving DecidableEq, Repr

structure SplitCbParams where
  nbSubvect : ℕ
  shapeBits : ℕ
  haveSign : ℕ
  deriving DecidableEq, Repr

inductive LspQuantizer
  | lbr
  | nb
  deriving DecidableEq, Repr

inductive PitchQuantizer
  | forcedPitch
  | pitch3tap (params : LtpParams)
  deriving DecidableEq, Repr

inductive InnovationQuantizer
  | noiseCodebook
  | splitCbShapeSign (params : SplitCbParams)
  deriving DecidableEq, Repr

structure SpeexSubmode where
  lbrPitch : ℤ
  forcedPitchGain : ℕ
  haveSubframeGain : ℕ
  doubleCodebook : ℕ
  lspQuant : LspQuantizer
  lspUnquant : LspQuantizer
  ltpQuant : PitchQuantizer
  ltpUnquant : PitchQuantizer
  innovationQuant : InnovationQuantizer
  innovationUnquant : InnovationQuantizer
  bitsPerFrame : ℕ
  deriving DecidableEq, Repr

def ltpParamsNb : LtpParams := ⟨7, 7⟩
def ltpParamsVlbr : LtpParams := ⟨5, 0⟩
def ltpParamsLbr : LtpParams := ⟨5, 7⟩
def ltpParamsMed : LtpParams := ⟨5, 7⟩

def splitCbNbVlbr : SplitCbParams := ⟨4, 4, 0⟩
def splitCbNbUlbr : SplitCbParams := ⟨2, 5, 0⟩
def splitCbNbLbr : SplitCbParams := ⟨4, 5, 0⟩
def splitCbNb : SplitCbParams := ⟨8, 6, 0⟩
def splitCbNbMed : SplitCbParams := ⟨5, 7, 0⟩
def splitCbSb : SplitCbParams := ⟨8, 8, 0⟩

/-- 2150 bps, for comfort noise. -/
def nbSubmode1 : SpeexSubmode where
  lbrPitch := 0
  forcedPitchGain := 1
  haveSubframeGain := 0
  doubleCodebook := 0
  lspQuant := .lbr
  lspUnquant := .lbr
  ltpQuant := .forcedPitch
  ltpUnquant := .forcedPitch
  innovationQuant := .noiseCodebook
  innovationUnquant := .noiseCodebook
  bitsPerFrame := 43

/-- 3.95 kbps. -/
def nbSubmode8 : SpeexSubmode where
  lbrPitch := 0
  forcedPitchGain := 1
  haveSubframeGain := 0
  doubleCodebook := 0
  lspQuant := .lbr
  lspUnquant := .lbr
  ltpQuant := .forcedPitch
  ltpUnquant := .forcedPitch
  innovationQuant := .splitCbShapeSign splitCbNbUlbr
  innovationUnquant := .splitCbShapeSign splitCbNbUlbr
  bitsPerFrame := 79

/-- 5.95 kbps. -/
def nbSubmode2 : SpeexSubmode where
  lbrPitch := 0
  forcedPitchGain := 0
  haveSubframeGain := 0
  doubleCodebook := 0
  lspQuant := .lbr
  lspUnquant := .lbr
  ltpQuant := .pitch3tap ltpParamsVlbr
  ltpUnquant := .pitch3tap ltpParamsVlbr
  innovationQuant := .splitCbShapeSign splitCbNbVlbr
  innovationUnquant := .splitCbShapeSign splitCbNbVlbr
  bitsPerFrame := 119

/-- 8 kbps. -/
def nbSubmode3 : SpeexSubmode where
  lbrPitch := -1
  forcedPitchGain := 0
  haveSubframeGain := 1
  doubleCodebook := 0
  lspQuant := .lbr
  lspUnquant := .lbr
  ltpQuant := .pitch3tap ltpParamsLbr
  ltpUnquant := .pitch3tap ltpParamsLbr
  innovationQuant := .splitCbShapeSign splitCbNbLbr
  innovationUnquant := .splitCbShapeSign splitCbNbLbr
  bitsPerFrame := 160

/-- 11 kbps. -/
def nbSubmode4 : SpeexSubmode where
  lbrPitch := -1
  forcedPitchGain := 0
  haveSubframeGain := 1
  doubleCodebook := 0
  lspQuant := .lbr
  lspUnquant := .lbr
  ltpQuant := .pitch3tap ltpParamsMed
  ltpUnquant := .pitch3tap ltpParamsMed
  innovationQuant := .splitCbShapeSign splitCbNbMed
  innovationUnquant := .splitCbShapeSign splitCbNbMed
  bitsPerFrame := 220

/-- The modes from 15 kbps on, which differ in their codebooks. -/
def nbSubmodeHigh (codebook : SplitCbParams) (doubleCodebook bitsPerFrame : ℕ) : SpeexSubmode where
  lbrPitch := -1
  forcedPitchGain := 0
  haveSubframeGain := 3
  doubleCodebook := doubleCodebook
  lspQuant := .nb
  lspUnquant := .nb
  ltpQuant := .pitch3tap ltpParamsNb
  ltpUnquant := .pitch3tap ltpParamsNb
  innovationQuant := .splitCbShapeSign codebook
  innovationUnquant := .splitCbShapeSign codebook
  bitsPerFrame := bitsPerFrame

def nbSubmode5 : SpeexSubmode := nbSubmodeHigh splitCbNb 0 300
def nbSubmode6 : SpeexSubmode := nbSubmodeHigh splitCbSb 0 364
def nbSubmode7 : SpeexSubmode := nbSubmodeHigh splitCbNb 1 492

/-- The table of `nb_mode`. -/
def submodes : ℕ → Option SpeexSubmode
  | 1 => some nbSubmode1
  | 2 => some nbSubmode2
  | 3 => some nbSubmode3
  | 4 => some nbSubmode4
  | 5 => some nbSubmode5
  | 6 => some nbSubmode6
  | 7 => some nbSubmode7
  | 8 => some nbSubmode8
  | _ => none

def qualityMap : List ℕ := [1, 8, 2, 3, 3, 4, 4, 5, 5, 6, 7]

/-- `SPEEX_SET_QUALITY`. -/
def submodeOfQuality (quality : ℤ) : ℕ := qualityMap.getD (max 0 (min quality 10)).toNat 0

def nbSubmodeBits : ℕ := 4
def sbSubmodeBits : ℕ := 3
def nbSubframes : ℕ := 4
def frameSize : ℕ := 160

section Encoding

/-- What the searches of a subframe end with. -/
structure SubframeAnalysis where
  pitch : UInt32
  gainIndex : UInt32
  energy : UInt32
  innovation : ℕ → UInt32
  secondInnovation : ℕ → UInt32

/-- What the signal processing of a frame ends with. -/
structure FrameAnalysis where
  lspIds : ℕ → UInt32
  olPitch : UInt32
  pitchGain : UInt32
  olGain : UInt32
  subframe : ℕ → SubframeAnalysis
  dtxCount : ℕ

def LspQuantizer.pack (ids : ℕ → UInt32) : LspQuantizer → List (UInt32 × ℕ)
  | .lbr => (List.range 3).map fun i => (ids i, 6)
  | .nb => (List.range 5).map fun i => (ids i, 6)

def PitchQuantizer.pack (a : SubframeAnalysis) : PitchQuantizer → List (UInt32 × ℕ)
  | .forcedPitch => []
  | .pitch3tap params => [(a.pitch, params.pitchBits), (a.gainIndex, params.gainBits)]

def InnovationQuantizer.pack (ids : ℕ → UInt32) : InnovationQuantizer → List (UInt32 × ℕ)
  | .noiseCodebook => []
  | .splitCbShapeSign params =>
    (List.range params.nbSubvect).map fun i => (ids i, params.shapeBits + params.haveSign)

def SpeexSubmode.packSubframe (m : SpeexSubmode) (a : SubframeAnalysis) : List (UInt32 × ℕ) :=
  m.ltpQuant.pack a ++
    (if m.haveSubframeGain ≠ 0 then
      if m.haveSubframeGain = 3 then [(a.energy, 3)] else [(a.energy, 1)]
    else []) ++
    m.innovationQuant.pack a.innovation ++
    (if m.doubleCodebook ≠ 0 then m.innovationQuant.pack a.secondInnovation else [])

/-- The calls of `speex_bits_pack` in `nb_encode`. -/
def nbEncode (submodeID : ℕ) (a : FrameAnalysis) : List (UInt32 × ℕ) :=
  [(0, 1), (UInt32.ofNat submodeID, nbSubmodeBits)] ++
    match submodes submodeID with
    | none => []
    | some m =>
      m.lspQuant.pack a.lspIds ++
        (if m.lbrPitch ≠ -1 then [(a.olPitch, 7)] else []) ++
        (if m.forcedPitchGain ≠ 0 then [(a.pitchGain, 4)] else []) ++
        [(a.olGain, 5)] ++
        (List.range nbSubframes).flatMap (fun i => m.packSubframe (a.subframe i)) ++
        (if submodeID = 1 then [(if a.dtxCount ≠ 0 then 15 else 0, 4)] else [])

end Encoding

section Decoding

def LspQuantizer.unpack : LspQuantizer → List ℕ
  | .lbr => [6, 6, 6]
  | .nb => [6, 6, 6, 6, 6]

def PitchQuantizer.unpack : PitchQuantizer → List ℕ
  | .forcedPitch => []
  | .pitch3tap params => [params.pitchBits, params.gainBits]

def InnovationQuantizer.unpack : InnovationQuantizer → List ℕ
  | .noiseCodebook => []
  | .splitCbShapeSign params =>
    (List.range params.nbSubvect).flatMap fun _ =>
      (if params.haveSign ≠ 0 then [1] else []) ++ [params.shapeBits]

def SpeexSubmode.unpackSubframe (m : SpeexSubmode) : List ℕ :=
  m.ltpUnquant.unpack ++
    (if m.haveSubframeGain = 3 then [3] else if m.haveSubframeGain = 1 then [1] else []) ++
    m.innovationUnquant.unpack ++
    (if m.doubleCodebook ≠ 0 then m.innovationUnquant.unpack else [])

/-- The widths in the calls of `speex_bits_unpack_unsigned` behind the header of a frame. The vocoder
mode has four bits for the transmission here, in front of the subframes. -/
def SpeexSubmode.unpackFrame (submodeID : ℕ) (m : SpeexSubmode) : List ℕ :=
  m.lspUnquant.unpack ++
    (if m.lbrPitch ≠ -1 then [7] else []) ++
    (if m.forcedPitchGain ≠ 0 then [4] else []) ++
    [5] ++
    (if submodeID = 1 then [4] else []) ++
    (List.range nbSubframes).flatMap (fun _ => m.unpackSubframe)

/-- The decoder reads the fields that the encoder packs, in the modes that have any. -/
theorem unpackFrame_eq {submodeID : ℕ} {m : SpeexSubmode} (h : submodes submodeID = some m)
    (a : FrameAnalysis) :
    (nbEncode submodeID a).map Prod.snd = [1, nbSubmodeBits] ++ m.unpackFrame submodeID := by
  unfold submodes at h
  split at h <;> cases h <;> rfl

/-- The number of bits of a frame is that of the table. -/
theorem totalWidth_nbEncode {submodeID : ℕ} {m : SpeexSubmode} (h : submodes submodeID = some m)
    (a : FrameAnalysis) : SpeexBits.totalWidth (nbEncode submodeID a) = m.bitsPerFrame := by
  rw [SpeexBits.totalWidth, unpackFrame_eq h]
  unfold submodes at h
  split at h <;> cases h <;> decide

def wbSkipTable : List ℤ := [0, 36, 112, 192, 352, 0, 0, 0]

/-- The length of an in-band request. -/
def inbandAdvance (id : UInt32) : ℕ :=
  if id < 2 then 1
  else if id < 8 then 4
  else if id < 10 then 8
  else if id < 12 then 16
  else if id < 14 then 32
  else 64

/-- `speex_inband_handler` without callbacks: the bits of the request are skipped. -/
def inbandHandler (bits : SpeexBits) : Except Fault SpeexBits := do
  let (id, bits) ← bits.unpackUnsigned 4
  return bits.advance (inbandAdvance id)

/-- `speex_default_user_handler`. -/
def defaultUserHandler (bits : SpeexBits) : Except Fault SpeexBits := do
  let (reqSize, bits) ← bits.unpackUnsigned 4
  return bits.advance (5 + 8 * reqSize.toNat : ℕ)

/-- The bits of a layer for wideband, behind the first of them. The modes that have none have 0 in
the table, which takes the stream back to the beginning of the layer. -/
def skipLayer (bits : SpeexBits) : Except Fault (Option ℤ × SpeexBits) := do
  let (submode, bits) ← bits.unpackUnsigned sbSubmodeBits
  let advance := wbSkipTable.getD submode.toNat 0
  if advance < 0 then return (some (-2), bits)
  return (none, bits.advance (advance - (sbSubmodeBits + 1)))

/-- Up to two layers for wideband are skipped. A result other than `none` is that of `nb_decode`. -/
def skipWideband (bits : SpeexBits) : Except Fault (Option ℤ × SpeexBits) := do
  let (failed, bits) ← skipLayer bits
  if failed.isSome then return (failed, bits)
  if bits.remaining < 5 then return (some (-1), bits)
  let (wideband, bits) ← bits.unpackUnsigned 1
  if wideband = 0 then return (none, bits)
  let (failed, bits) ← skipLayer bits
  if failed.isSome then return (failed, bits)
  let (wideband, bits) ← bits.unpackUnsigned 1
  if wideband ≠ 0 then return (some (-2), bits)
  return (none, bits)

/-- A round of the search for the next narrowband block. -/
inductive Round
  | failed (ret : ℤ)
  | mode (submodeID : ℕ)
  | again
  deriving DecidableEq, Repr

/-- The mode behind the layers: of a frame, of a request, or of the terminator. -/
def readMode (bits : SpeexBits) : Except Fault (Round × SpeexBits) := do
  if bits.remaining < 4 then return (.failed (-1), bits)
  let (m, bits) ← bits.unpackUnsigned 4
  if m = 15 then return (.failed (-1), bits)
  else if m = 14 then return (.again, ← inbandHandler bits)
  else if m = 13 then return (.again, ← defaultUserHandler bits)
  else if m > 8 then return (.failed (-2), bits)
  else return (.mode m.toNat, bits)

def headerRound (bits : SpeexBits) : Except Fault (Round × SpeexBits) := do
  if bits.remaining < 5 then return (.failed (-1), bits)
  let (wideband, bits) ← bits.unpackUnsigned 1
  let (failed, bits) ← if wideband ≠ 0 then skipWideband bits else .ok (none, bits)
  match failed with
  | some ret => return (.failed ret, bits)
  | none => readMode bits

/-- The search for the next narrowband block: a mode, or what `nb_decode` returns instead. -/
def nbHeader : ℕ → SpeexBits → Except Fault (Except ℤ ℕ × SpeexBits)
  | 0, _ => .error .endless
  | rounds + 1, bits => do
    let (round, bits) ← headerRound bits
    match round with
    | .failed ret => return (.error ret, bits)
    | .mode submodeID => return (.ok submodeID, bits)
    | .again => nbHeader rounds bits

end Decoding

section Reading
variable {bits bits' bits'' : SpeexBits} {m n : ℕ}

/-- The stream has been read on by so many bits at least, or past its end. -/
structure ReadOn (bits : SpeexBits) (n : ℕ) (bits' : SpeexBits) : Prop where
  readable : bits'.Readable
  nbBits : bits'.nbBits = bits.nbBits
  owner : bits'.owner = bits.owner
  bufSize : bits'.bufSize = bits.bufSize
  later : bits'.overflow = true ∨ bits.overflow = false ∧ bits.position + n ≤ bits'.position

theorem ReadOn.refl (hr : bits.Readable) : ReadOn bits 0 bits := by
  refine ⟨hr, rfl, rfl, rfl, ?_⟩
  cases hoverflow : bits.overflow with
  | false => exact .inr ⟨rfl, Nat.le_refl _⟩
  | true => exact .inl rfl

theorem ReadOn.mono (h : ReadOn bits n bits') (hle : m ≤ n) : ReadOn bits m bits' := by
  refine ⟨h.readable, h.nbBits, h.owner, h.bufSize, h.later.imp_right fun hlater => ?_⟩
  exact ⟨hlater.1, by omega⟩

theorem ReadOn.trans (h : ReadOn bits m bits') (hr : bits''.Readable)
    (hnbBits : bits''.nbBits = bits'.nbBits) (howner : bits''.owner = bits'.owner)
    (hbufSize : bits''.bufSize = bits'.bufSize)
    (hlater : bits''.overflow = true ∨
      bits'.overflow = false ∧ bits.position + n ≤ bits''.position) : ReadOn bits n bits'' := by
  refine ⟨hr, hnbBits.trans h.nbBits, howner.trans h.owner, hbufSize.trans h.bufSize, ?_⟩
  rcases hlater with hover | ⟨hfalse, hle⟩
  · exact .inl hover
  · rcases h.later with hover | ⟨hfalse', _⟩
    · rw [hfalse] at hover
      cases hover
    · exact .inr ⟨hfalse', hle⟩

theorem ReadOn.position_le (h : ReadOn bits m bits') (hoverflow : bits'.overflow = false) :
    bits.position + m ≤ bits'.position := by
  rcases h.later with hover | ⟨_, hle⟩
  · rw [hoverflow] at hover
    cases hover
  · exact hle

theorem ReadOn.unpackUnsigned (h : ReadOn bits m bits') (n : ℕ) :
    ∃ d bits'', bits'.unpackUnsigned n = .ok (d, bits'') ∧ ReadOn bits (m + n) bits'' := by
  by_cases hend : bits'.overflow = true ∨ bits'.nbBits < bits'.position + n
  · refine ⟨0, _, SpeexBits.unpackUnsigned_of_overflow hend, ?_⟩
    exact h.trans (SpeexBits.readable_overflow h.readable true) rfl rfl rfl (.inl rfl)
  · simp only [not_or, Nat.not_lt, Bool.not_eq_true] at hend
    have hbefore := h.position_le hend.1
    refine ⟨_, _, SpeexBits.unpackUnsigned_of_le h.readable hend.1 hend.2, ?_⟩
    refine h.trans (SpeexBits.readable_seek h.readable hend.2) rfl rfl rfl (.inr ⟨hend.1, ?_⟩)
    rw [SpeexBits.position_seek]
    omega

/-- Advancing may go back, by less than has been read. -/
theorem ReadOn.advance (h : ReadOn bits m bits') {k : ℤ} (hk : 0 ≤ n + k) (hn : n ≤ m) :
    ReadOn bits (m - n) (bits'.advance k) := by
  by_cases hend : (bits'.position : ℤ) + k > bits'.nbBits ∨ bits'.overflow = true
  · rw [SpeexBits.advance, if_pos hend]
    exact h.trans (SpeexBits.readable_overflow h.readable true) rfl rfl rfl (.inl rfl)
  · have hplace := hend
    simp only [not_or, Bool.not_eq_true] at hplace
    have hbefore := h.position_le hplace.2
    rw [SpeexBits.advance_eq_seek h.readable.sound (by omega) hplace.2 (by omega)]
    refine h.trans (SpeexBits.readable_seek h.readable (by omega)) rfl rfl rfl
      (.inr ⟨hplace.2, ?_⟩)
    rw [SpeexBits.position_seek]
    omega

theorem ReadOn.forward (h : ReadOn bits m bits') (k : ℕ) : ReadOn bits m (bits'.advance k) :=
  h.advance (n := 0) (by omega) (Nat.zero_le m)

theorem ReadOn.inbandHandler (h : ReadOn bits m bits') :
    ∃ bits'', inbandHandler bits' = .ok bits'' ∧ ReadOn bits m bits'' := by
  obtain ⟨id, read, hread, hon⟩ := h.unpackUnsigned 4
  refine ⟨read.advance (inbandAdvance id), ?_, (hon.mono (Nat.le_add_right m 4)).forward _⟩
  rw [Speex.inbandHandler, hread, SpeexBits.ok_bind]
  rfl

theorem ReadOn.defaultUserHandler (h : ReadOn bits m bits') :
    ∃ bits'', defaultUserHandler bits' = .ok bits'' ∧ ReadOn bits m bits'' := by
  obtain ⟨reqSize, read, hread, hon⟩ := h.unpackUnsigned 4
  refine ⟨read.advance (5 + 8 * reqSize.toNat : ℕ), ?_,
    (hon.mono (Nat.le_add_right m 4)).forward _⟩
  rw [Speex.defaultUserHandler, hread, SpeexBits.ok_bind]
  rfl

theorem wbSkipTable_nonneg (i : ℕ) : 0 ≤ wbSkipTable.getD i 0 := by
  have hall : ∀ advance ∈ wbSkipTable, 0 ≤ advance := by decide
  rw [List.getD_eq_getElem?_getD]
  cases hi : wbSkipTable[i]? with
  | none => exact le_refl 0
  | some advance => exact hall advance (List.mem_of_getElem? hi)

/-- A layer is left, or the stream is back at its beginning. -/
theorem ReadOn.skipLayer (h : ReadOn bits (m + 1) bits') :
    ∃ bits'', skipLayer bits' = .ok (none, bits'') ∧ ReadOn bits m bits'' := by
  obtain ⟨submode, read, hread, hon⟩ := h.unpackUnsigned sbSubmodeBits
  have hnonneg := wbSkipTable_nonneg submode.toNat
  have hwidth : (sbSubmodeBits : ℤ) = 3 := rfl
  have hback := hon.advance (n := 4)
    (k := wbSkipTable.getD submode.toNat 0 - (sbSubmodeBits + 1)) (by omega) (by omega)
  refine ⟨_, ?_, hback.mono (by omega)⟩
  rw [Speex.skipLayer, hread, SpeexBits.ok_bind]
  simp only
  rw [if_neg (by omega)]
  rfl

/-- What `nb_decode` returns where it does not decode a frame. -/
def Failure (ret : ℤ) : Prop := ret = -1 ∨ ret = -2

theorem ReadOn.skipWideband (h : ReadOn bits (m + 1) bits') :
    ∃ failed bits'', skipWideband bits' = .ok (failed, bits'') ∧ ReadOn bits m bits'' ∧
      (∀ ret, failed = some ret → Failure ret) ∧
      (failed = none → ReadOn bits (m + 1) bits'') := by
  obtain ⟨left, hleft, hon⟩ := h.skipLayer
  unfold Speex.skipWideband
  rw [hleft, SpeexBits.ok_bind]
  simp only [Option.isSome_none, Bool.false_eq_true, ↓reduceIte]
  by_cases hend : left.remaining < 5
  · rw [if_pos hend]
    exact ⟨some (-1), left, rfl, hon, by rintro _ ⟨⟩; exact .inl rfl, by rintro ⟨⟩⟩
  · rw [if_neg hend]
    obtain ⟨wideband, read, hread, hon'⟩ := hon.unpackUnsigned 1
    rw [hread, SpeexBits.ok_bind]
    simp only
    by_cases hwideband : wideband = 0
    · rw [if_pos hwideband]
      exact ⟨none, read, rfl, hon'.mono (Nat.le_succ m), by rintro _ ⟨⟩, fun _ => hon'⟩
    · rw [if_neg hwideband]
      obtain ⟨left', hleft', hon₂⟩ := hon'.skipLayer
      obtain ⟨more, read', hread', hon₃⟩ := hon₂.unpackUnsigned 1
      rw [hleft', SpeexBits.ok_bind]
      simp only [Option.isSome_none, Bool.false_eq_true, ↓reduceIte]
      rw [hread', SpeexBits.ok_bind]
      simp only
      by_cases hmore : more ≠ 0
      · rw [if_pos hmore]
        exact ⟨some (-2), read', rfl, hon₃.mono (Nat.le_succ m), by rintro _ ⟨⟩; exact .inr rfl,
          by rintro ⟨⟩⟩
      · rw [if_neg hmore]
        exact ⟨none, read', rfl, hon₃.mono (Nat.le_succ m), by rintro _ ⟨⟩, fun _ => hon₃⟩

theorem ReadOn.readMode (h : ReadOn bits 1 bits') :
    ∃ round bits'', readMode bits' = .ok (round, bits'') ∧ ReadOn bits 0 bits'' ∧
      (∀ ret, round = .failed ret → Failure ret) ∧
      (∀ submodeID, round = .mode submodeID → submodeID ≤ 8) ∧
      (round = .again → ReadOn bits 5 bits'') := by
  unfold Speex.readMode
  have hzero := h.mono (Nat.zero_le 1)
  by_cases hend : bits'.remaining < 4
  · rw [if_pos hend]
    exact ⟨.failed (-1), bits', rfl, hzero, by rintro _ ⟨⟩; exact .inl rfl, by rintro _ ⟨⟩,
      by rintro ⟨⟩⟩
  · obtain ⟨m, read, hread, hon⟩ := h.unpackUnsigned 4
    have hon₀ := hon.mono (Nat.zero_le 5)
    rw [if_neg hend, hread, SpeexBits.ok_bind]
    simp only
    by_cases h15 : m = 15
    · rw [if_pos h15]
      exact ⟨.failed (-1), read, rfl, hon₀, by rintro _ ⟨⟩; exact .inl rfl, by rintro _ ⟨⟩,
        by rintro ⟨⟩⟩
    · rw [if_neg h15]
      by_cases h14 : m = 14
      · obtain ⟨bits'', hskip, hon'⟩ := hon.inbandHandler
        rw [if_pos h14, hskip]
        exact ⟨.again, bits'', rfl, hon'.mono (Nat.zero_le 5), by rintro _ ⟨⟩, by rintro _ ⟨⟩,
          fun _ => hon'⟩
      · rw [if_neg h14]
        by_cases h13 : m = 13
        · obtain ⟨bits'', hskip, hon'⟩ := hon.defaultUserHandler
          rw [if_pos h13, hskip]
          exact ⟨.again, bits'', rfl, hon'.mono (Nat.zero_le 5), by rintro _ ⟨⟩, by rintro _ ⟨⟩,
            fun _ => hon'⟩
        · rw [if_neg h13]
          by_cases h8 : m > 8
          · rw [if_pos h8]
            exact ⟨.failed (-2), read, rfl, hon₀, by rintro _ ⟨⟩; exact .inr rfl, by rintro _ ⟨⟩,
              by rintro ⟨⟩⟩
          · have hle : m.toNat ≤ 8 := UInt32.le_iff_toNat_le.mp (UInt32.not_lt.mp h8)
            rw [if_neg h8]
            exact ⟨.mode m.toNat, read, rfl, hon₀, by rintro _ ⟨⟩, by rintro _ ⟨⟩; exact hle,
              by rintro ⟨⟩⟩

/-- A round of the search fails, or finds one of the modes, or reads five bits at least. -/
theorem ReadOn.headerRound (hr : bits.Readable) :
    ∃ round bits', headerRound bits = .ok (round, bits') ∧ ReadOn bits 0 bits' ∧
      (∀ ret, round = .failed ret → Failure ret) ∧
      (∀ submodeID, round = .mode submodeID → submodeID ≤ 8) ∧
      (round = .again → ReadOn bits 5 bits' ∧ 5 ≤ bits.remaining) := by
  unfold Speex.headerRound
  by_cases hend : bits.remaining < 5
  · rw [if_pos hend]
    exact ⟨.failed (-1), bits, rfl, .refl hr, by rintro _ ⟨⟩; exact .inl rfl, by rintro _ ⟨⟩,
      by rintro ⟨⟩⟩
  · have hmore : 5 ≤ bits.remaining := Int.not_lt.mp hend
    obtain ⟨wideband, read, hread, hon⟩ := (ReadOn.refl hr).unpackUnsigned 1
    rw [if_neg hend, hread, SpeexBits.ok_bind]
    simp only
    by_cases hwideband : wideband ≠ 0
    · obtain ⟨failed, skipped, hskip, hon₀, hfailure, hon₁⟩ := hon.skipWideband
      rw [if_pos hwideband, hskip, SpeexBits.ok_bind]
      cases failed with
      | some ret =>
        exact ⟨.failed ret, skipped, rfl, hon₀, by rintro _ ⟨⟩; exact hfailure ret rfl,
          by rintro _ ⟨⟩, by rintro ⟨⟩⟩
      | none =>
        obtain ⟨round, bits', hround, hon', hret, hmode, hagain⟩ := (hon₁ rfl).readMode
        exact ⟨round, bits', hround, hon', hret, hmode, fun h => ⟨hagain h, hmore⟩⟩
    · rw [if_neg hwideband, SpeexBits.ok_bind]
      obtain ⟨round, bits', hround, hon', hret, hmode, hagain⟩ := hon.readMode
      exact ⟨round, bits', hround, hon', hret, hmode, fun h => ⟨hagain h, hmore⟩⟩

/-- The search ends, whatever the packet is. -/
theorem ReadOn.nbHeader {rounds : ℕ} (hr : bits.Readable)
    (hrounds : bits.nbBits - bits.position < rounds) :
    ∃ result bits', nbHeader rounds bits = .ok (result, bits') ∧ bits'.Readable ∧
      bits'.owner = bits.owner ∧ bits'.bufSize = bits.bufSize ∧
      (∀ ret, result = .error ret → Failure ret) ∧
      (∀ submodeID, result = .ok submodeID → submodeID ≤ 8) := by
  induction rounds generalizing bits with
  | zero => omega
  | succ rounds ih =>
    obtain ⟨round, bits', hround, hon, hret, hmode, hagain⟩ := ReadOn.headerRound hr
    rw [Speex.nbHeader, hround, SpeexBits.ok_bind]
    cases round with
    | failed ret =>
      exact ⟨.error ret, bits', rfl, hon.readable, hon.owner, hon.bufSize,
        by rintro _ ⟨⟩; exact hret ret rfl, by rintro _ ⟨⟩⟩
    | mode submodeID =>
      exact ⟨.ok submodeID, bits', rfl, hon.readable, hon.owner, hon.bufSize, by rintro _ ⟨⟩,
        by rintro _ ⟨⟩; exact hmode submodeID rfl⟩
    | again =>
      obtain ⟨hon₅, hmore⟩ := hagain rfl
      simp only
      cases hoverflow : bits'.overflow with
      | true =>
        -- Past the end of the packet the next round is the last.
        cases rounds with
        | zero =>
          have hle := SpeexBits.remaining_le bits
          omega
        | succ rounds =>
          have hend : bits'.remaining < 5 := by
            rw [SpeexBits.remaining, if_pos hoverflow]
            decide
          rw [Speex.nbHeader, Speex.headerRound, if_pos hend]
          exact ⟨.error (-1), bits', rfl, hon.readable, hon.owner, hon.bufSize,
            by rintro _ ⟨⟩; exact .inl rfl, by rintro _ ⟨⟩⟩
      | false =>
        have hlater := hon₅.position_le hoverflow
        have hnbBits := hon₅.nbBits
        have hin := hon₅.readable.position_le
        obtain ⟨result, bits'', hrest, hr'', howner, hbufSize, hfailure, hmodes⟩ :=
          ih hon₅.readable (by omega)
        exact ⟨result, bits'', hrest, hr'', howner.trans hon₅.owner, hbufSize.trans hon₅.bufSize,
          hfailure, hmodes⟩

theorem ReadOn.unpackFields (h : ReadOn bits m bits') (widths : List ℕ) :
    ∃ values bits'', bits'.unpackFields widths = .ok (values, bits'') ∧ ReadOn bits m bits'' := by
  induction widths generalizing bits' with
  | nil => exact ⟨[], bits', rfl, h⟩
  | cons width widths ih =>
    obtain ⟨value, read, hread, hon⟩ := h.unpackUnsigned width
    obtain ⟨values, bits'', hrest, hon'⟩ := ih (hon.mono (Nat.le_add_right m width))
    refine ⟨value :: values, bits'', ?_, hon'⟩
    rw [SpeexBits.unpackFields, hread, SpeexBits.ok_bind]
    simp only [hrest, SpeexBits.ok_bind]
    rfl

end Reading

section Frames
variable {bits : SpeexBits} {submodeID : ℕ} {m : SpeexSubmode}

/-- The search finds the header that the encoder has packed. -/
theorem nbHeader_of_frame (rounds : ℕ) (hr : bits.Readable) (hoverflow : bits.overflow = false)
    (hmode : submodeID ≤ 8) (hend : bits.position + 5 ≤ bits.nbBits)
    (hbits : bitsFrom bits.chars bits.position 5 =
      SpeexBits.bitsOfFields [(0, 1), (UInt32.ofNat submodeID, nbSubmodeBits)]) :
    nbHeader (rounds + 1) bits = .ok (.ok submodeID, bits.seek (bits.position + 5)) := by
  have hsplit := bitsFrom_add bits.chars bits.position 1 4
  rw [hbits] at hsplit
  have hfirst : bitsFrom bits.chars bits.position 1 = fieldBits 1 0 :=
    (List.append_inj hsplit (length_bitsFrom ..).symm).1.symm
  have hsecond : bitsFrom bits.chars (bits.position + 1) 4 =
      fieldBits 4 (UInt32.ofNat submodeID).toNat := by
    have h := (List.append_inj hsplit (length_bitsFrom ..).symm).2.symm
    rw [h]
    exact List.append_nil _
  have hwideband := SpeexBits.unpackUnsigned_of_le (n := 1) hr hoverflow (by omega)
  rw [hfirst, spell_fieldBits] at hwideband
  have hin : bits.position + 1 ≤ bits.nbBits := by omega
  have hr' := SpeexBits.readable_seek hr hin
  have hplace := SpeexBits.position_seek (bits.position + 1) bits
  have hid := SpeexBits.unpackUnsigned_of_le (n := 4) hr' hoverflow (by
    rw [hplace]
    change bits.position + 1 + 4 ≤ bits.nbBits
    omega)
  rw [hplace, SpeexBits.seek_seek] at hid
  change _ = Except.ok (UInt32.ofNat (spell 0 (bitsFrom bits.chars (bits.position + 1) 4)), _) at hid
  have hsmall : (UInt32.ofNat submodeID).toNat = submodeID :=
    UInt32.toNat_ofNat_of_lt' (Nat.lt_of_le_of_lt hmode (by decide))
  rw [hsecond, spell_fieldBits, hsmall, Nat.mod_eq_of_lt (by omega)] at hid
  have hmore : ¬ bits.remaining < 5 := by
    rw [SpeexBits.remaining, hoverflow]
    simp only [Bool.false_eq_true, ↓reduceIte]
    omega
  have hmore' : ¬ (bits.seek (bits.position + 1)).remaining < 4 := by
    have hover : (bits.seek (bits.position + 1)).overflow = false := hoverflow
    have hnbBits : (bits.seek (bits.position + 1)).nbBits = bits.nbBits := rfl
    rw [SpeexBits.remaining, hover, hplace, hnbBits]
    simp only [Bool.false_eq_true, ↓reduceIte]
    omega
  have hread : readMode (bits.seek (bits.position + 1)) =
      .ok (.mode submodeID, bits.seek (bits.position + 5)) := by
    have hmodes : ∀ k ≤ 8, UInt32.ofNat k ≠ 15 ∧ UInt32.ofNat k ≠ 14 ∧ UInt32.ofNat k ≠ 13 ∧
        ¬ UInt32.ofNat k > 8 := by decide
    obtain ⟨h15, h14, h13, h8⟩ := hmodes submodeID hmode
    rw [readMode, if_neg hmore', hid, SpeexBits.ok_bind]
    simp only [h15, h14, h13, h8, ↓reduceIte, hsmall]
    rfl
  rw [nbHeader, headerRound, if_neg hmore, hwideband, SpeexBits.ok_bind]
  simp only [Nat.zero_mod]
  rw [if_neg (by decide), SpeexBits.ok_bind]
  simp only
  rw [hread, SpeexBits.ok_bind]
  rfl

/-- A frame that the encoder has packed is read as the numbers of that frame. -/
theorem decode_of_frame (rounds : ℕ) (h : submodes submodeID = some m) (a : FrameAnalysis)
    (hr : bits.Readable) (hoverflow : bits.overflow = false) (hend : bits.position + m.bitsPerFrame ≤ bits.nbBits)
    (hbits : bitsFrom bits.chars bits.position m.bitsPerFrame =
      SpeexBits.bitsOfFields (nbEncode submodeID a)) :
    ∃ found, nbHeader (rounds + 1) bits = .ok (.ok submodeID, found) ∧
      found.unpackFields (m.unpackFrame submodeID) =
        .ok (((nbEncode submodeID a).drop 2).map SpeexBits.fitField,
          bits.seek (bits.position + m.bitsPerFrame)) := by
  have hmode : submodeID ≤ 8 := by
    by_contra hlarge
    have hnone : submodes submodeID = none := by
      unfold submodes
      split <;> first | omega | rfl
    rw [hnone] at h
    cases h
  have htotal := totalWidth_nbEncode h a
  have hwidths := unpackFrame_eq h a
  generalize hfields : (nbEncode submodeID a).drop 2 = fields at *
  have hcons : nbEncode submodeID a =
      [(0, 1), (UInt32.ofNat submodeID, nbSubmodeBits)] ++ fields := by
    rw [← hfields]
    rfl
  rw [hcons] at htotal hwidths hbits
  have hlength : m.bitsPerFrame = 5 + SpeexBits.totalWidth fields := by
    rw [← htotal]
    simp only [SpeexBits.totalWidth, List.map_append, List.sum_append]
    rfl
  rw [hlength] at hbits hend ⊢
  rw [bitsFrom_add, SpeexBits.bitsOfFields, List.flatMap_append] at hbits
  obtain ⟨hheader, hrest⟩ := List.append_inj hbits (length_bitsFrom ..)
  have hframe := nbHeader_of_frame rounds hr hoverflow hmode (by omega) hheader
  have hplace := SpeexBits.position_seek (bits.position + 5) bits
  have hin : bits.position + 5 ≤ bits.nbBits := by omega
  have hr' := SpeexBits.readable_seek hr hin
  have hfit : (bits.seek (bits.position + 5)).position + SpeexBits.totalWidth fields ≤
      (bits.seek (bits.position + 5)).nbBits := by
    rw [hplace]
    change bits.position + 5 + SpeexBits.totalWidth fields ≤ bits.nbBits
    omega
  have hread := SpeexBits.unpackFields_spec hr' hoverflow hfit (by rw [hplace]; exact hrest)
  rw [List.map_append] at hwidths
  have hwidths' : fields.map Prod.snd = m.unpackFrame submodeID :=
    (List.append_inj hwidths rfl).2
  rw [hwidths', hplace, SpeexBits.seek_seek, Nat.add_assoc] at hread
  exact ⟨_, hframe, hread⟩

/-- Behind the last frame of a packet the search finds nothing. -/
theorem nbHeader_of_end (h : bits.remaining < 5) :
    nbHeader (rounds + 1) bits = .ok (.error (-1), bits) := by
  rw [nbHeader, headerRound, if_pos h]
  rfl

end Frames
end SignalIOS.Audio.Speex
