import SignalIOS.Audio.SpeexBits

/-! What is packed into a stream of bits is what is unpacked from it, whatever the buffers on both
sides have been used for before, and no use of them reaches outside of a buffer. -/
namespace SignalIOS.Audio
open SignalIOS.Lib

namespace SpeexBits

/-- The bits behind those of a frame, up to the end of the byte. -/
def terminator (bitPtr : ℕ) : List Bool :=
  if bitPtr = 0 then [] else false :: List.replicate (7 - bitPtr) true

theorem length_terminator {n : ℕ} (h : n < 8) : (terminator n).length = (8 - n) % 8 := by
  unfold terminator
  split
  · rw [‹n = 0›]
    rfl
  · rw [List.length_cons, List.length_replicate]
    omega

/-- Both pointers on a place. -/
def seek (place : ℕ) (bits : SpeexBits) : SpeexBits :=
  { bits with charPtr := place / 8, bitPtr := place % 8 }

/-- A stream whose bits are all in the buffer. -/
structure Readable (bits : SpeexBits) : Prop where
  sound : bits.Sound
  position_le : bits.position ≤ bits.nbBits
  nbBits_le : bits.nbBits ≤ 8 * bits.bufSize

section Writing
variable {bits : SpeexBits} {memory : Realloc} {n rounds : ℕ}

theorem pack_of_no_room (data : UInt32) (hs : bits.Sound)
    (hmemory : bits.owner = true → memory = none) (hroom : bits.bufSize ≤ (bits.position + n) / 8) :
    bits.pack memory data n = .ok bits := by
  have hplace := position_eq bits
  have hend : bits.charPtr + ((n + bits.bitPtr) >>> 3) ≥ bits.bufSize := by
    have hbit := hs.bitPtr_lt
    rw [Nat.shiftRight_eq_div_pow]
    omega
  unfold pack
  rw [if_pos hend]
  cases howner : bits.owner with
  | false => rfl
  | true =>
    rw [hmemory howner]
    rfl

theorem fillChar_of_bitPtr_eq_zero (h : bits.bitPtr = 0) :
    fillChar memory rounds bits = .ok bits := by
  cases rounds <;> rw [fillChar, if_pos h]

/-- The terminator ends with the last byte of the buffer. `pack` ends no byte without another one
behind it, for which there is no memory. -/
structure Starved (bits : SpeexBits) (memory : Realloc) : Prop where
  begun : bits.bitPtr ≠ 0
  atEnd : bits.bufSize ≤ bits.charPtr + 1
  refused : bits.owner = true → memory = none

/-- A bit that does not end the byte leaves the stream without memory. Another one is not packed. -/
theorem pack_of_starved (data : UInt32) (hs : bits.Sound) (h : bits.Starved memory) :
    ∃ bits', bits.pack memory data 1 = .ok bits' ∧ bits'.Sound ∧ bits'.Starved memory := by
  have hplace := position_eq bits
  have hlt := hs.bitPtr_lt
  have hatEnd := h.atEnd
  by_cases hroom : bits.bufSize ≤ (bits.position + 1) / 8
  · exact ⟨bits, pack_of_no_room data hs h.refused hroom, hs, h⟩
  · have hend : ¬ bits.charPtr + ((1 + bits.bitPtr) >>> 3) ≥ bits.bufSize := by
      rw [Nat.shiftRight_eq_div_pow]
      omega
    have hplain : bits.position + 1 < 8 * bits.bufSize := by omega
    obtain ⟨hsound, hsize, -⟩ := hs.putBit hplain (data.toNat.testBit 0)
    refine ⟨bits.putBit (data.toNat.testBit 0), ?_, hsound, ?_⟩
    · unfold SpeexBits.pack
      rw [if_neg hend, packBits_succ data hs (by decide) hplain]
      rfl
    · have hinside : ¬ bits.bitPtr + 1 = 8 := by omega
      have hput : (bits.putBit (data.toNat.testBit 0)).charPtr = bits.charPtr ∧
          (bits.putBit (data.toNat.testBit 0)).bitPtr = bits.bitPtr + 1 ∧
          (bits.putBit (data.toNat.testBit 0)).owner = bits.owner := by
        rw [putBit, if_neg hinside]
        exact ⟨rfl, rfl, rfl⟩
      constructor
      · rw [hput.2.1]
        exact Nat.succ_ne_zero _
      · rw [hsize, hput.1]
        exact hatEnd
      · rw [hput.2.2]
        exact h.refused

theorem fillChar_of_starved (hs : bits.Sound) (h : bits.Starved memory) :
    fillChar memory rounds bits = .error .endless := by
  induction rounds generalizing bits with
  | zero => rw [fillChar, if_neg h.begun]
  | succ rounds ih =>
    obtain ⟨bits', hpack, hs', h'⟩ := pack_of_starved 1 hs h
    rw [fillChar, if_neg h.begun, hpack, ok_bind, ih hs' h']

theorem insertTerminator_of_starved (hs : bits.Sound) (h : bits.Starved memory) :
    bits.insertTerminator memory = .error .endless := by
  obtain ⟨bits', hpack, hs', h'⟩ := pack_of_starved 0 hs h
  rw [insertTerminator, if_pos h.begun, hpack, ok_bind]
  exact fillChar_of_starved hs' h'

theorem fillChar_spec (memory : Realloc) (hs : bits.Sound) (hrounds : 8 - bits.bitPtr ≤ rounds) :
    (∃ bits', fillChar memory rounds bits = .ok bits' ∧ bits'.Sound ∧
      bits.Appended (List.replicate ((8 - bits.bitPtr) % 8) true) bits') ∨
    (fillChar memory rounds bits = .error .endless ∧ bits.Starved memory) := by
  have hlt := hs.bitPtr_lt
  induction rounds generalizing bits with
  | zero => omega
  | succ rounds ih =>
    by_cases hbit : bits.bitPtr = 0
    · left
      refine ⟨bits, fillChar_of_bitPtr_eq_zero hbit, hs, ?_⟩
      rw [hbit]
      exact .refl bits
    · rcases pack_spec memory 1 hs (by decide : 1 ≤ 32) with
        ⟨_, hmemory, hroom⟩ | ⟨packed, hpack, hs', happ⟩
      · have hplace := position_eq bits
        have hstarved : bits.Starved memory := ⟨hbit, by omega, hmemory⟩
        exact .inr ⟨fillChar_of_starved hs hstarved, hstarved⟩
      · have hplace := position_eq bits
        have hplace' := position_eq packed
        have hposition : packed.position = bits.position + 1 := happ.position
        have hlt' := hs'.bitPtr_lt
        have hnext : packed.bitPtr = (bits.bitPtr + 1) % 8 := by omega
        rw [fillChar, if_neg hbit, hpack, ok_bind]
        by_cases hend : packed.bitPtr = 0
        · left
          have hlast : (8 - bits.bitPtr) % 8 = 1 := by omega
          exact ⟨packed, fillChar_of_bitPtr_eq_zero hend, hs', hlast ▸ happ⟩
        · have hcount : (8 - bits.bitPtr) % 8 = 1 + (8 - packed.bitPtr) % 8 := by omega
          rw [hcount, List.replicate_add]
          rcases ih hs' (by omega) hlt' with ⟨bits', hfill, hs'', happ'⟩ | ⟨hfill, hstarved⟩
          · exact .inl ⟨bits', hfill, hs'', happ.trans happ'⟩
          · have hgrown := happ.bufSize
            have hatEnd := hstarved.atEnd
            exact .inr ⟨hfill, hbit, by omega, happ.owner ▸ hstarved.refused⟩

theorem insertTerminator_spec (memory : Realloc) (hs : bits.Sound) :
    (∃ bits', bits.insertTerminator memory = .ok bits' ∧ bits'.Sound ∧
      bits.Appended (terminator bits.bitPtr) bits') ∨
    (bits.insertTerminator memory = .error .endless ∧ bits.Starved memory) := by
  have hlt := hs.bitPtr_lt
  unfold insertTerminator terminator
  by_cases hbit : bits.bitPtr = 0
  · left
    rw [if_neg (not_not.mpr hbit), ok_bind, if_pos hbit]
    exact ⟨bits, fillChar_of_bitPtr_eq_zero hbit, hs, .refl bits⟩
  · rw [if_pos hbit, if_neg hbit]
    rcases pack_spec memory 0 hs (by decide : 1 ≤ 32) with
      ⟨hpack, hmemory, hroom⟩ | ⟨packed, hpack, hs', happ⟩
    · have hplace := position_eq bits
      right
      have hstarved : bits.Starved memory := ⟨hbit, by omega, hmemory⟩
      rw [hpack, ok_bind]
      exact ⟨fillChar_of_starved hs hstarved, hstarved⟩
    · have hplace := position_eq bits
      have hplace' := position_eq packed
      have hposition : packed.position = bits.position + 1 := happ.position
      have hlt' := hs'.bitPtr_lt
      have hcount : (8 - packed.bitPtr) % 8 = 7 - bits.bitPtr := by omega
      rw [hpack, ok_bind]
      rcases fillChar_spec memory hs' (Nat.sub_le 8 _) with
        ⟨bits', hfill, hs'', happ'⟩ | ⟨hfill, hstarved⟩
      · left
        rw [hcount] at happ'
        exact ⟨bits', hfill, hs'', happ.trans happ'⟩
      · have hgrown := happ.bufSize
        have hatEnd := hstarved.atEnd
        have hbegun := hstarved.begun
        exact .inr ⟨hfill, hbit, by omega, happ.owner ▸ hstarved.refused⟩

/-- What is written is the beginning of the stream, up to the end of a byte. -/
theorem write_spec (memory : Realloc) (maxNbytes : ℕ) (hr : bits.Readable) :
    (∃ full bits', bits.write memory maxNbytes = .ok (full.take maxNbytes, bits') ∧
      bits'.Readable ∧ bits'.position = bits.position ∧ bits'.nbBits = bits.nbBits ∧
      bits'.owner = bits.owner ∧ bits.bufSize ≤ bits'.bufSize ∧
      bits'.bufSize ≤ max bits.bufSize (3 * (bits.position / 8 + 10) / 2) ∧
      full.length = bits.nbytes ∧
      (bits.Clean → bits.position = bits.nbBits →
        bitString full = bitsFrom bits.chars 0 bits.position ++ terminator bits.bitPtr)) ∨
    (bits.write memory maxNbytes = .error .endless ∧ bits.Starved memory) := by
  have hs := hr.sound
  have hroom := hr.nbBits_le
  have hvalid := hr.position_le
  unfold write
  rcases insertTerminator_spec memory hs with ⟨terminated, hins, hs', happ⟩ | ⟨hins, herror⟩
  · left
    have hgrown := happ.bufSize
    have hsize := hs'.size
    have hnchars : (bits.nbBits + bitsPerChar - 1) >>> 3 = (bits.nbBits + 7) / 8 := by
      rw [Nat.shiftRight_eq_div_pow]
      rfl
    have hbytes : (bits.nbBits + 7) / 8 ≤ terminated.chars.length := by omega
    refine ⟨terminated.chars.take ((bits.nbBits + 7) / 8), { terminated with
      bitPtr := bits.bitPtr, charPtr := bits.charPtr, nbBits := bits.nbBits }, ?_, ?_, rfl, rfl,
      happ.owner, hgrown, ?_, ?_, ?_⟩
    · rw [hins, ok_bind]
      simp only [hnchars]
      rw [if_pos ((Nat.min_le_right _ _).trans hbytes), List.take_take]
      rfl
    · have hposition := hs.position_le
      have hlarger : 8 * bits.bufSize ≤ 8 * terminated.bufSize := Nat.mul_le_mul_left 8 hgrown
      exact ⟨⟨hsize, hs'.nonempty, hs.bitPtr_lt, hposition.trans hlarger⟩, hvalid,
        hroom.trans hlarger⟩
    · have hle := happ.bufSize_le
      have hend := happ.position
      have hlength := length_terminator hs.bitPtr_lt
      show terminated.bufSize ≤ _
      omega
    · rw [List.length_take_of_le hbytes, nbytes, hnchars]
    · intro hclean hend
      have hplace := position_eq bits
      have hlt := hs.bitPtr_lt
      have hlength := length_terminator hlt
      have hcount : 8 * ((bits.nbBits + 7) / 8) =
          bits.position + (terminator bits.bitPtr).length := by
        rw [hlength]
        omega
      have hread : bitsFrom (terminated.chars.take ((bits.nbBits + 7) / 8)) 0
            (8 * ((bits.nbBits + 7) / 8)) =
          bitsFrom terminated.chars 0 (8 * ((bits.nbBits + 7) / 8)) := by
        apply bitsFrom_congr
        intro i hi
        exact bitAt_take (by omega)
      have hkept : bitsFrom terminated.chars 0 bits.position =
          bitsFrom bits.chars 0 bits.position := by
        apply bitsFrom_congr
        intro i hi
        exact happ.kept _ (by omega)
      rw [bitString, List.length_take_of_le hbytes, hread, hcount, bitsFrom_add, Nat.zero_add,
        happ.written hclean, hkept]
  · right
    rw [hins]
    exact ⟨rfl, herror⟩

end Writing

section Reading
variable {bits : SpeexBits} {n : ℕ}

theorem seek_position (hs : bits.Sound) : bits.seek bits.position = bits := by
  have hplace := position_eq bits
  have hlt := hs.bitPtr_lt
  have hchar : bits.position / 8 = bits.charPtr := by omega
  have hbit : bits.position % 8 = bits.bitPtr := by omega
  rw [seek, hchar, hbit]

@[simp] theorem position_seek (place : ℕ) (bits : SpeexBits) :
    (bits.seek place).position = place := by
  rw [position_eq]
  exact Nat.div_add_mod place 8

theorem seek_seek (place place' : ℕ) (bits : SpeexBits) :
    (bits.seek place).seek place' = bits.seek place' := rfl

theorem nextBit_seek (place : ℕ) (bits : SpeexBits) :
    (bits.seek place).nextBit = bits.seek (place + 1) := by
  rw [nextBit, bitsPerChar]
  by_cases hlast : place % 8 + 1 = 8
  · have hchar : place / 8 + 1 = (place + 1) / 8 := by omega
    have hbit : 0 = (place + 1) % 8 := by omega
    rw [if_pos (show (bits.seek place).bitPtr + 1 = 8 from hlast)]
    simp only [seek]
    rw [hchar, hbit]
  · have hchar : place / 8 = (place + 1) / 8 := by omega
    have hbit : place % 8 + 1 = (place + 1) % 8 := by omega
    rw [if_neg (show ¬ (bits.seek place).bitPtr + 1 = 8 from hlast)]
    simp only [seek]
    rw [hchar, hbit]

theorem currentBit_seek {place : ℕ} (h : place < 8 * bits.chars.length) :
    (bits.seek place).currentBit = .ok (UInt32.ofNat (bitAt bits.chars place).toNat) := by
  have hin : place / 8 < bits.chars.length := by omega
  have hbit : ∀ (char : UInt8), ∀ k < 8, ((char >>> UInt8.ofNat (7 - k)) &&& 1).toUInt32 =
      UInt32.ofNat (char.toNat.testBit (7 - k)).toNat := by
    intro char k hk
    have hshift : (UInt8.ofNat (7 - k)).toNat % 8 = 7 - k := by
      rw [UInt8.toNat_ofNat_of_lt' (by change 7 - k < 256; omega), Nat.mod_eq_of_lt (by omega)]
    have hlow : (char.toNat >>> (7 - k)) &&& 1 = (char.toNat.testBit (7 - k)).toNat := by
      rw [Nat.and_one_is_mod, Nat.shiftRight_eq_div_pow, Nat.toNat_testBit]
    apply UInt32.toNat_inj.mp
    rw [UInt8.toNat_toUInt32, UInt8.toNat_and, UInt8.toNat_shiftRight, hshift]
    apply hlow.trans
    cases char.toNat.testBit (7 - k) <;> rfl
  have hload := load_of_lt (show (bits.seek place).charPtr < (bits.seek place).chars.length from hin)
  rw [currentBit, hload, ok_bind]
  exact congrArg Except.ok (hbit _ _ (Nat.mod_lt place (by decide)))

theorem shiftIn (d : ℕ) (bit : Bool) :
    (UInt32.ofNat d <<< 1) ||| UInt32.ofNat bit.toNat = UInt32.ofNat (2 * d + bit.toNat) := by
  have hbit : bit.toNat < 2 ^ 1 := bit.toNat_lt
  have hsmall : (UInt32.ofNat bit.toNat).toNat = bit.toNat :=
    UInt32.toNat_ofNat_of_lt' (hbit.trans (by decide))
  have hshift : (d % 2 ^ 32) <<< 1 % 2 ^ 32 = (d % 2 ^ 31) <<< 1 := by
    rw [Nat.shiftLeft_eq, Nat.shiftLeft_eq]
    omega
  apply UInt32.toNat_inj.mp
  rw [UInt32.toNat_or, hsmall, UInt32.toNat_shiftLeft, UInt32.toNat_ofNat', UInt32.toNat_ofNat']
  refine (congrArg (· ||| bit.toNat) hshift).trans ?_
  rw [← Nat.shiftLeft_add_eq_or_of_lt hbit, Nat.shiftLeft_eq]
  omega

/-- The loop of reading spells the bits from a place on. -/
theorem unpackBits_seek {place : ℕ} (d : ℕ) (h : place + n ≤ 8 * bits.chars.length) :
    unpackBits n (UInt32.ofNat d) (bits.seek place) =
      .ok (UInt32.ofNat (spell d (bitsFrom bits.chars place n)), bits.seek (place + n)) := by
  induction n generalizing d place with
  | zero => rfl
  | succ n ih =>
    rw [unpackBits, currentBit_seek (by omega), ok_bind, shiftIn, nextBit_seek, ih _ (by omega),
      bitsFrom, spell_cons, Nat.add_assoc, Nat.add_comm 1]

/-- Reading past the end reads nothing, also later. -/
theorem unpackUnsigned_of_overflow
    (h : bits.overflow = true ∨ bits.nbBits < bits.position + n) :
    bits.unpackUnsigned n = .ok (0, { bits with overflow := true }) := by
  unfold unpackUnsigned checkOverflow
  by_cases hend : bits.position + n > bits.nbBits
  · rw [if_pos hend]
    rfl
  · have hoverflow : bits.overflow = true := h.resolve_right hend
    rw [if_neg hend]
    simp only [hoverflow, ↓reduceIte]
    rw [← hoverflow]

theorem unpackUnsigned_of_le (hr : bits.Readable) (hoverflow : bits.overflow = false)
    (h : bits.position + n ≤ bits.nbBits) :
    bits.unpackUnsigned n = .ok (UInt32.ofNat (spell 0 (bitsFrom bits.chars bits.position n)),
      bits.seek (bits.position + n)) := by
  have hsize := hr.sound.size
  have hroom := hr.nbBits_le
  have hin : bits.position + n ≤ 8 * bits.chars.length := by omega
  have hread := unpackBits_seek 0 hin
  rw [seek_position hr.sound] at hread
  unfold unpackUnsigned checkOverflow
  rw [if_neg (Nat.not_lt.mpr h)]
  simp only [hoverflow, Bool.false_eq_true, ↓reduceIte]
  exact hread

/-- Peeking at bits is reading them and going back. -/
theorem peekUnsigned_eq (bits : SpeexBits) (n : ℕ) :
    bits.peekUnsigned n = (bits.unpackUnsigned n).map fun (d, _) => (d, bits.checkOverflow n) := by
  unfold peekUnsigned unpackUnsigned
  by_cases hoverflow : (bits.checkOverflow n).overflow = true
  · simp only [hoverflow, ↓reduceIte]
    rfl
  · simp only [hoverflow]
    cases unpackBits n 0 (bits.checkOverflow n) <;> rfl

theorem peek_eq (bits : SpeexBits) : bits.peek = bits.peekUnsigned 1 := by
  unfold peek peekUnsigned
  by_cases hoverflow : (bits.checkOverflow 1).overflow = true
  · simp only [hoverflow, ↓reduceIte]
  · simp only [hoverflow]
    cases hbit : (bits.checkOverflow 1).currentBit with
    | error fault => simp [unpackBits, hbit, bind, Except.bind]
    | ok bit => simp [unpackBits, hbit, bind, Except.bind, pure, Except.pure]

theorem readable_seek (hr : bits.Readable) {place : ℕ} (h : place ≤ bits.nbBits) :
    (bits.seek place).Readable := by
  have hroom := hr.nbBits_le
  have hplace := position_seek place bits
  refine ⟨⟨hr.sound.size, hr.sound.nonempty, Nat.mod_lt place (by decide), ?_⟩, ?_, hroom⟩
  · rw [hplace]
    exact h.trans hroom
  · rw [hplace]
    exact h

theorem readable_overflow (hr : bits.Readable) (overflow : Bool) :
    { bits with overflow := overflow }.Readable :=
  ⟨⟨hr.sound.size, hr.sound.nonempty, hr.sound.bitPtr_lt, hr.sound.position_le⟩, hr.position_le,
    hr.nbBits_le⟩

theorem readable_checkOverflow (hr : bits.Readable) (n : ℕ) :
    (bits.checkOverflow n).Readable ∧ (bits.checkOverflow n).owner = bits.owner ∧
      (bits.checkOverflow n).bufSize = bits.bufSize ∧
      (bits.checkOverflow n).nbBits = bits.nbBits := by
  unfold checkOverflow
  split
  · exact ⟨readable_overflow hr true, rfl, rfl, rfl⟩
  · exact ⟨hr, rfl, rfl, rfl⟩

theorem unpackUnsigned_readable (hr : bits.Readable) (n : ℕ) :
    ∃ d bits', bits.unpackUnsigned n = .ok (d, bits') ∧ bits'.Readable ∧
      bits'.owner = bits.owner ∧ bits'.bufSize = bits.bufSize ∧ bits'.nbBits = bits.nbBits := by
  by_cases hend : bits.overflow = true ∨ bits.nbBits < bits.position + n
  · exact ⟨0, _, unpackUnsigned_of_overflow hend, readable_overflow hr true, rfl, rfl, rfl⟩
  · simp only [not_or, Nat.not_lt, Bool.not_eq_true] at hend
    exact ⟨_, _, unpackUnsigned_of_le hr hend.1 hend.2, readable_seek hr hend.2, rfl, rfl, rfl⟩

theorem remaining_le (bits : SpeexBits) : bits.remaining ≤ (bits.nbBits - bits.position : ℤ) ∨
    bits.remaining = -1 := by
  unfold remaining
  split
  · exact .inr rfl
  · exact .inl le_rfl

theorem advance_eq_seek (hs : bits.Sound) {k : ℤ} (hback : 0 ≤ bits.position + k)
    (hoverflow : bits.overflow = false) (h : bits.position + k ≤ bits.nbBits) :
    bits.advance k = bits.seek (bits.position + k).toNat := by
  have hplace := position_eq bits
  have hlt := hs.bitPtr_lt
  have hcond : ¬ ((bits.position : ℤ) + k > bits.nbBits ∨ bits.overflow = true) := by
    rintro (hpast | htrue)
    · omega
    · rw [hoverflow] at htrue
      cases htrue
  have hchar : ((bits.charPtr : ℤ) + (bits.bitPtr + k) / 8).toNat =
      ((bits.position : ℤ) + k).toNat / 8 := by omega
  have hbit : (((bits.bitPtr : ℤ) + k) % 8).toNat = ((bits.position : ℤ) + k).toNat % 8 := by omega
  rw [advance, if_neg hcond, hchar, hbit, seek]

end Reading

/-- What a user of the streams does with one of them. -/
inductive Event
  | reset
  | rewind
  | readFrom (memory : Realloc) (chars : List UInt8)
  | pack (memory : Realloc) (data : UInt32) (nbBits : ℕ)
  | insertTerminator (memory : Realloc)
  | write (memory : Realloc) (maxNbytes : ℕ)
  | unpackUnsigned (nbBits : ℕ)
  | unpackSigned (nbBits : ℕ)
  | peekUnsigned (nbBits : ℕ)
  | peek
  | advance (n : ℤ)

def handle (bits : SpeexBits) : Event → Except Fault SpeexBits
  | .reset => bits.reset
  | .rewind => .ok bits.rewind
  | .readFrom memory chars => bits.readFrom memory chars
  | .pack memory data nbBits => bits.pack memory data nbBits
  | .insertTerminator memory => bits.insertTerminator memory
  | .write memory maxNbytes => Prod.snd <$> bits.write memory maxNbytes
  | .unpackUnsigned nbBits => Prod.snd <$> bits.unpackUnsigned nbBits
  | .unpackSigned nbBits => Prod.snd <$> bits.unpackSigned nbBits
  | .peekUnsigned nbBits => Prod.snd <$> bits.peekUnsigned nbBits
  | .peek => Prod.snd <$> bits.peek
  | .advance n => .ok (bits.advance n)

/-- Bits are packed at the end of a stream only, as many at a time as an `int` has, signed numbers
have a sign and are not as wide as an `int`, and nobody goes back behind the beginning. -/
def Meaningful (bits : SpeexBits) : Event → Prop
  | .pack _ _ nbBits => bits.position = bits.nbBits ∧ nbBits ≤ 32
  | .insertTerminator _ => bits.position = bits.nbBits
  | .unpackSigned nbBits => 1 ≤ nbBits ∧ nbBits ≤ 31
  | .advance n => 0 ≤ bits.position + n
  | _ => True

/-- By how many bits an event goes on. A terminator has at most eight. -/
def Event.width : Event → ℕ
  | .reset | .rewind | .readFrom _ _ => 0
  | .pack _ _ nbBits | .unpackUnsigned nbBits | .unpackSigned nbBits | .peekUnsigned nbBits =>
    nbBits
  | .insertTerminator _ | .write _ _ => 8
  | .peek => 1
  | .advance n => n.toNat

/-- What is counted in the event stays in the range of `int`. -/
def Event.InRange (bits : SpeexBits) : Event → Prop
  | .readFrom _ chars => 8 * chars.length < intRange
  | e => bits.nbBits + e.width < intRange

instance (bits : SpeexBits) : ∀ e, Decidable (Meaningful bits e)
  | .pack _ _ _ | .unpackSigned _ => inferInstanceAs (Decidable (_ ∧ _))
  | .insertTerminator _ => inferInstanceAs (Decidable (_ = _))
  | .advance _ => inferInstanceAs (Decidable (_ ≤ _))
  | .reset | .rewind | .readFrom _ _ | .write _ _ | .unpackUnsigned _ | .peekUnsigned _ | .peek =>
    .isTrue trivial

instance (bits : SpeexBits) : ∀ e, Decidable (Event.InRange bits e)
  | .readFrom _ _ | .reset | .rewind | .pack _ _ _ | .insertTerminator _ | .write _ _
  | .unpackUnsigned _ | .unpackSigned _ | .peekUnsigned _ | .peek | .advance _ =>
    inferInstanceAs (Decidable (_ < _))

/-- The events with the terminator loop, with what the allocator answers in it. -/
def Event.terminates : Event → Option Realloc
  | .insertTerminator memory | .write memory _ => some memory
  | _ => none

def step : Except Fault SpeexBits → Event → Option (Except Fault SpeexBits)
  | .error _, _ => none
  | .ok bits, e => if Meaningful bits e ∧ e.InRange bits then some (bits.handle e) else none

def machine (start : Except Fault SpeexBits) : Machine (Except Fault SpeexBits) Event where
  init := start
  step := step

section Runs
variable {bits : SpeexBits} {memory : Realloc} {e : Event}

theorem reset_spec (hs : bits.Sound) : ∃ bits', bits.reset = .ok bits' ∧ bits'.Readable ∧
    bits'.Clean ∧ bits'.position = 0 ∧ bits'.nbBits = 0 ∧ bits'.owner = bits.owner ∧
    bits'.overflow = false ∧ bits'.bufSize = bits.bufSize := by
  have hfirst : 0 < bits.chars.length := hs.size ▸ hs.nonempty
  have hlength : (bits.chars.set 0 0).length = bits.bufSize := by rw [List.length_set, hs.size]
  refine ⟨{ bits with
    chars := bits.chars.set 0 0, nbBits := 0, charPtr := 0, bitPtr := 0, overflow := false }, ?_,
    ⟨⟨hlength, hs.nonempty, Nat.succ_pos 7, Nat.zero_le _⟩, Nat.le_refl 0, Nat.zero_le _⟩,
    ⟨?_, ?_⟩, rfl, rfl, rfl, rfl, rfl⟩
  · rw [reset, store_of_lt hfirst]
    rfl
  · rw [List.length_set]
    exact hfirst
  · intro i _ hi
    have hbyte : i / 8 = 0 := Nat.div_eq_of_lt hi
    rw [bitAt_set_zero hfirst, hbyte]
    rfl

theorem makeRoom_spec (memory : Realloc) (nchars : ℕ) (hs : bits.Sound) :
    (bits.makeRoom memory nchars).2.Sound ∧
      (bits.makeRoom memory nchars).1 ≤ (bits.makeRoom memory nchars).2.bufSize ∧
      (bits.makeRoom memory nchars).2.owner = bits.owner ∧
      bits.bufSize ≤ (bits.makeRoom memory nchars).2.bufSize ∧
      (bits.makeRoom memory nchars).2.bufSize ≤ max bits.bufSize nchars ∧
      ((bits.makeRoom memory nchars).1 = nchars ∨
        (bits.makeRoom memory nchars).1 ≤ nchars ∧ (bits.owner = true → memory = none) ∧
          bits.bufSize < nchars) := by
  unfold makeRoom
  by_cases hlarge : nchars > bits.bufSize
  · rw [if_pos hlarge]
    cases howner : bits.owner with
    | false =>
      exact ⟨hs, Nat.le_refl _, howner, Nat.le_refl _, Nat.le_max_left _ _,
        .inr ⟨Nat.le_of_lt hlarge, by simp, hlarge⟩⟩
    | true =>
      cases memory with
      | none =>
        exact ⟨hs, Nat.le_refl _, howner, Nat.le_refl _, Nat.le_max_left _ _,
          .inr ⟨Nat.le_of_lt hlarge, by simp, hlarge⟩⟩
      | some fresh =>
        exact ⟨hs.resize (Nat.le_of_lt hlarge) fresh, Nat.le_refl _, howner,
          Nat.le_of_lt hlarge, Nat.le_max_right _ _, .inl rfl⟩
  · rw [if_neg hlarge]
    exact ⟨hs, Nat.le_of_not_lt hlarge, rfl, Nat.le_refl _, Nat.le_max_left _ _, .inl rfl⟩

/-- The buffer holds the bytes that were read, those of them that it has room for. -/
theorem readFrom_spec (memory : Realloc) (chars : List UInt8) (hs : bits.Sound) :
    ∃ nchars bits', bits.readFrom memory chars = .ok bits' ∧ bits'.Readable ∧
      bits'.position = 0 ∧ bits'.overflow = false ∧ bits'.nbBits = 8 * nchars ∧
      bits'.owner = bits.owner ∧ bits.bufSize ≤ bits'.bufSize ∧
      bits'.bufSize ≤ max bits.bufSize chars.length ∧
      (nchars = chars.length ∨ nchars ≤ chars.length ∧ (bits.owner = true → memory = none) ∧
        bits.bufSize < chars.length) ∧
      ∀ i < 8 * nchars, bitAt bits'.chars i = bitAt chars i := by
  obtain ⟨hs', hfits, howner, hgrown, hlimit, hcount⟩ := makeRoom_spec memory chars.length hs
  unfold readFrom
  generalize bits.makeRoom memory chars.length = room at hs' hfits howner hgrown hlimit hcount
  obtain ⟨nchars, roomy⟩ := room
  simp only at hs' hfits howner hgrown hlimit hcount ⊢
  have hle : nchars ≤ chars.length := hcount.elim (fun h => h.le) fun h => h.1
  have hread : (chars.take nchars).length = nchars := List.length_take_of_le hle
  have hlength : (overwrite roomy.chars 0 (chars.take nchars)).length = roomy.bufSize := by
    rw [length_overwrite (by rw [hread, hs'.size]; omega), hs'.size]
  have hbits : nchars <<< 3 = 8 * nchars := by
    rw [Nat.shiftLeft_eq]
    omega
  refine ⟨nchars, _, if_pos (hs'.size ▸ hfits), ⟨⟨hlength, hs'.nonempty, Nat.succ_pos 7,
    Nat.zero_le _⟩, Nat.zero_le _, ?_⟩, rfl, rfl, hbits, howner, hgrown, hlimit, hcount, ?_⟩
  · simp only [hbits]
    exact Nat.mul_le_mul_left 8 hfits
  · intro i hi
    simp only [overwrite, List.take_zero, List.nil_append]
    rw [bitAt_append_left (by rw [hread]; exact hi), bitAt_take hi]

/-- The counters of a stream are in the range of `int`. -/
structure InRange (bits : SpeexBits) : Prop where
  nbBits : bits.nbBits < intRange
  bufSize : bits.bufSize < intRange

/-- Bits up to the range of `int` do not make the buffer grow out of it. -/
theorem InRange.grow {bits bits' : SpeexBits} (h : bits.InRange) (place : ℕ)
    (hnbBits : bits'.nbBits < intRange) (hplace : place < intRange + 8)
    (hlimit : bits'.bufSize ≤ max bits.bufSize (3 * (place / 8 + 10) / 2)) : bits'.InRange := by
  have hbufSize := h.bufSize
  refine ⟨hnbBits, ?_⟩
  unfold intRange at *
  omega

theorem InRange.congr {bits bits' : SpeexBits} (h : bits.InRange)
    (hnbBits : bits'.nbBits = bits.nbBits) (hbufSize : bits'.bufSize = bits.bufSize) :
    bits'.InRange := ⟨hnbBits ▸ h.nbBits, hbufSize ▸ h.bufSize⟩

/-- A stream to the end of which bits are appended is read up to its new end. -/
theorem Appended.readable {bits bits' : SpeexBits} {s : List Bool} (happ : bits.Appended s bits')
    (hend : bits.position = bits.nbBits) (hs' : bits'.Sound) : bits'.Readable := by
  have hend' : bits'.position = bits'.nbBits := by rw [happ.position, happ.nbBits, hend]
  exact ⟨hs', hend'.le, hend' ▸ hs'.position_le⟩

theorem Appended.inRange {bits bits' : SpeexBits} {s : List Bool} (happ : bits.Appended s bits')
    (hend : bits.position = bits.nbBits) (hin : bits.InRange)
    (hrange : bits.nbBits + s.length < intRange) : bits'.InRange := by
  have hplace := happ.position
  have hcount := happ.nbBits
  have hlimit := happ.bufSize_le
  exact hin.grow bits'.position (by omega) (by omega) (by omega)

/-- Every function ends with a stream that can be read, without reaching outside of the buffer; but
for a terminator for which there is no memory. -/
theorem handle_spec (hr : bits.Readable) (hm : Meaningful bits e) :
    (∃ bits', bits.handle e = .ok bits' ∧ bits'.Readable ∧ bits'.owner = bits.owner ∧
      bits.bufSize ≤ bits'.bufSize ∧ (bits.InRange → e.InRange bits → bits'.InRange)) ∨
    (bits.handle e = .error .endless ∧ ∃ memory, e.terminates = some memory ∧
      bits.Starved memory) := by
  have hs := hr.sound
  cases e with
  | reset =>
    obtain ⟨bits', hreset, hr', _, _, hnbBits, howner, _, hsize⟩ := reset_spec hs
    exact .inl ⟨bits', hreset, hr', howner, hsize.ge,
      fun hin _ => ⟨by rw [hnbBits]; decide, hsize ▸ hin.bufSize⟩⟩
  | rewind =>
    exact .inl ⟨bits.rewind, rfl, ⟨⟨hs.size, hs.nonempty, Nat.succ_pos 7, Nat.zero_le _⟩,
      Nat.zero_le _, hr.nbBits_le⟩, rfl, Nat.le_refl _, fun hin _ => hin.congr rfl rfl⟩
  | readFrom memory chars =>
    obtain ⟨nchars, bits', hread, hr', _, _, hnbBits, howner, hgrown, hlimit, hcount, _⟩ :=
      readFrom_spec memory chars hs
    refine .inl ⟨bits', hread, hr', howner, hgrown, fun hin hrange => ?_⟩
    have hle : nchars ≤ chars.length := hcount.elim (fun h => h.le) fun h => h.1
    have hlength : 8 * chars.length < intRange := hrange
    have hbufSize := hin.bufSize
    constructor <;> omega
  | pack memory data nbBits =>
    left
    rcases pack_spec memory data hs hm.2 with ⟨hpack, _⟩ | ⟨bits', hpack, hs', happ⟩
    · exact ⟨bits, hpack, hr, rfl, Nat.le_refl _, fun hin _ => hin⟩
    · refine ⟨bits', hpack, happ.readable hm.1 hs', happ.owner, happ.bufSize, fun hin hrange => ?_⟩
      apply happ.inRange hm.1 hin
      rw [length_fieldBits]
      exact hrange
  | insertTerminator memory =>
    rcases insertTerminator_spec memory hs with ⟨bits', hins, hs', happ⟩ | ⟨hins, hstarved⟩
    · refine .inl ⟨bits', hins, happ.readable hm hs', happ.owner, happ.bufSize,
        fun hin hrange => ?_⟩
      apply happ.inRange hm hin
      have hlength := length_terminator hs.bitPtr_lt
      have hbits : bits.nbBits + 8 < intRange := hrange
      omega
    · exact .inr ⟨hins, memory, rfl, hstarved⟩
  | write memory maxNbytes =>
    rcases write_spec memory maxNbytes hr with
      ⟨full, bits', hwrite, hr', _, hcount, howner, hgrown, hlimit, _⟩ | ⟨hwrite, hstarved⟩
    · refine .inl ⟨bits', by rw [handle, hwrite]; rfl, hr', howner, hgrown, fun hin hrange => ?_⟩
      have hbits : bits.nbBits + 8 < intRange := hrange
      have hplace := hr.position_le
      exact hin.grow _ (by omega) (by omega) hlimit
    · exact .inr ⟨by rw [handle, hwrite]; rfl, memory, rfl, hstarved⟩
  | unpackUnsigned nbBits =>
    obtain ⟨d, bits', hread, hr', howner, hsize, hcount⟩ := unpackUnsigned_readable hr nbBits
    exact .inl ⟨bits', by rw [handle, hread]; rfl, hr', howner, hsize.ge,
      fun hin _ => hin.congr hcount hsize⟩
  | unpackSigned nbBits =>
    obtain ⟨d, bits', hread, hr', howner, hsize, hcount⟩ := unpackUnsigned_readable hr nbBits
    refine .inl ⟨bits', ?_, hr', howner, hsize.ge, fun hin _ => hin.congr hcount hsize⟩
    rw [handle, unpackSigned, hread, ok_bind]
    simp only
    split <;> rfl
  | peekUnsigned nbBits =>
    obtain ⟨d, _, hread, _⟩ := unpackUnsigned_readable hr nbBits
    obtain ⟨hr', howner, hsize, hcount⟩ := readable_checkOverflow hr nbBits
    exact .inl ⟨_, by rw [handle, peekUnsigned_eq, hread]; rfl, hr', howner, hsize.ge,
      fun hin _ => hin.congr hcount hsize⟩
  | peek =>
    obtain ⟨d, _, hread, _⟩ := unpackUnsigned_readable hr 1
    obtain ⟨hr', howner, hsize, hcount⟩ := readable_checkOverflow hr 1
    exact .inl ⟨_, by rw [handle, peek_eq, peekUnsigned_eq, hread]; rfl, hr', howner, hsize.ge,
      fun hin _ => hin.congr hcount hsize⟩
  | advance n =>
    left
    by_cases hend : (bits.position : ℤ) + n > bits.nbBits ∨ bits.overflow = true
    · exact ⟨_, by rw [handle, advance, if_pos hend], readable_overflow hr true, rfl, Nat.le_refl _,
        fun hin _ => hin.congr rfl rfl⟩
    · have hplace := hend
      simp only [not_or, Bool.not_eq_true] at hplace
      have hseek := advance_eq_seek hs hm hplace.2 (by omega)
      have hback : 0 ≤ (bits.position : ℤ) + n := hm
      exact ⟨_, by rw [handle, hseek], readable_seek hr (by omega), rfl, Nat.le_refl _,
        fun hin _ => hin.congr rfl rfl⟩

theorem init_readable : ∃ bits, init = .ok bits ∧ bits.Readable ∧ bits.owner = true ∧
    bits.bufSize = maxCharsPerFrame ∧ bits.InRange := by
  have hs : SpeexBits.Sound
      { chars := List.replicate maxCharsPerFrame 0
        nbBits := 0
        charPtr := 0
        bitPtr := 0
        owner := true
        overflow := false
        bufSize := maxCharsPerFrame } :=
    ⟨List.length_replicate, by decide, by decide, by decide⟩
  obtain ⟨bits, hreset, hr, _, _, hnbBits, howner, _, hsize⟩ := reset_spec hs
  exact ⟨bits, hreset, hr, howner, hsize, by rw [hnbBits]; decide, by rw [hsize]; decide⟩

theorem initBuffer_readable {buff : List UInt8} (hne : buff ≠ [])
    (hlength : buff.length < intRange) :
    ∃ bits, initBuffer buff = .ok bits ∧ bits.Readable ∧ bits.InRange := by
  have hs : SpeexBits.Sound
      { chars := buff
        nbBits := 0
        charPtr := 0
        bitPtr := 0
        owner := false
        overflow := false
        bufSize := buff.length } :=
    ⟨rfl, List.length_pos_iff.mpr hne, Nat.succ_pos 7, Nat.zero_le _⟩
  obtain ⟨bits, hreset, hr, _, _, hnbBits, _, _, hsize⟩ := reset_spec hs
  exact ⟨bits, hreset, hr, by rw [hnbBits]; decide, by rw [hsize]; exact hlength⟩

/-- The stream is in its buffer, and its counters are in their range; or it waits forever for a
terminator, for which the buffer would have to grow and does not. -/
def Safe (start : Except Fault SpeexBits) (tr : History (Except Fault SpeexBits) Event) : Prop :=
  (∃ bits, (machine start).last tr = .ok bits ∧ bits.Readable ∧ bits.InRange ∧
    ∀ memory maxNbytes,
      (bits.insertTerminator memory = .error .endless ↔ bits.Starved memory) ∧
      (bits.write memory maxNbytes = .error .endless ↔ bits.Starved memory)) ∨
    ((machine start).last tr = .error .endless ∧
      (machine start).Latest (fun s e => ∃ bits memory, s = .ok bits ∧ e.terminates = some memory ∧
        bits.Starved memory) tr)

/-- A step starts from a stream, and is one that has a meaning for it. -/
theorem step_cases {s s' : Except Fault SpeexBits} (h : step s e = some s') :
    ∃ bits, s = .ok bits ∧ Meaningful bits e ∧ e.InRange bits ∧ bits.handle e = s' := by
  cases s with
  | error fault => cases h
  | ok bits =>
    rw [step] at h
    by_cases hm : Meaningful bits e ∧ e.InRange bits
    · rw [if_pos hm] at h
      exact ⟨bits, rfl, hm.1, hm.2, Option.some.inj h⟩
    · rw [if_neg hm] at h
      cases h

/-- The terminator loop runs forever if and only if the buffer would have to grow and does not. -/
theorem endless_iff (hr : bits.Readable) (memory : Realloc) (maxNbytes : ℕ) :
    (bits.insertTerminator memory = .error .endless ↔ bits.Starved memory) ∧
      (bits.write memory maxNbytes = .error .endless ↔ bits.Starved memory) := by
  have hins : bits.Starved memory → bits.insertTerminator memory = .error .endless :=
    insertTerminator_of_starved hr.sound
  constructor
  · refine ⟨fun hendless => ?_, hins⟩
    rcases insertTerminator_spec memory hr.sound with ⟨bits', hok, _⟩ | ⟨_, hstarved⟩
    · rw [hok] at hendless
      cases hendless
    · exact hstarved
  · refine ⟨fun hendless => ?_, fun hstarved => by rw [write, hins hstarved]; rfl⟩
    rcases write_spec memory maxNbytes hr with ⟨full, bits', hok, _⟩ | ⟨_, hstarved⟩
    · rw [hok] at hendless
      cases hendless
    · exact hstarved

/-- No function reaches outside of the buffer, in any run that starts with one. -/
theorem safe_of_run {start : Except Fault SpeexBits} {tr : History (Except Fault SpeexBits) Event}
    (hstart : start = init ∨
      ∃ buff : List UInt8, buff ≠ [] ∧ buff.length < intRange ∧ start = initBuffer buff)
    (h : (machine start).Run tr) : Safe start tr := by
  refine h.invariant (P := Safe start) ?_ ?_
  · left
    rcases hstart with hinit | ⟨buff, hne, hlength, hinit⟩
    · obtain ⟨bits, hbits, hr, _, _, hin⟩ := init_readable
      exact ⟨bits, hinit.trans hbits, hr, hin, endless_iff hr⟩
    · obtain ⟨bits, hbits, hr, hin⟩ := initBuffer_readable hne hlength
      exact ⟨bits, hinit.trans hbits, hr, hin, endless_iff hr⟩
  · intro tr e s _ hsafe hstep
    obtain ⟨bits, hlast, hm, hrange, hhandle⟩ := step_cases hstep
    rcases hsafe with ⟨bits₀, hlast₀, hr, hin, _⟩ | ⟨hlast₀, _⟩
    · obtain rfl : bits = bits₀ := Except.ok.inj (hlast.symm.trans hlast₀)
      rcases handle_spec hr hm with ⟨bits', hok, hr', _, _, hin'⟩ | ⟨herror, memory, hstarved⟩
      · exact .inl ⟨bits', hhandle.symm.trans hok, hr', hin' hin hrange, endless_iff hr'⟩
      · exact .inr ⟨hhandle.symm.trans herror, bits, memory, hlast, hstarved⟩
    · rw [hlast] at hlast₀
      cases hlast₀

/-- Three bits behind a byte that has been read, in a buffer of two bytes that is somebody else's.
For their terminator there is no third byte. -/
theorem safe_of_terminator : ∃ tr, tr.map Prod.fst =
      [.write none 2, .pack none 1 3, .unpackUnsigned 8, .readFrom none [7], .reset,
        .pack none 5 3] ∧
    (machine (initBuffer [0, 0])).last tr = .error .endless ∧ Safe (initBuffer [0, 0]) tr := by
  have hrun : ((machine (initBuffer [0, 0])).exec [.pack none 5 3, .reset, .readFrom none [7],
      .unpackUnsigned 8, .pack none 1 3, .write none 2]).map (machine (initBuffer [0, 0])).last =
      some (.error .endless) := by rfl
  obtain ⟨tr, htr, hlast⟩ := Option.map_eq_some_iff.mp hrun
  exact ⟨tr, Machine.map_fst_of_exec htr, hlast,
    safe_of_run (.inr ⟨[0, 0], by decide, by decide, rfl⟩) (Machine.run_of_exec htr)⟩

/-- A stream of `init` keeps its memory, and may ask for more. -/
theorem readable_of_run {tr : History (Except Fault SpeexBits) Event} (h : (machine init).Run tr)
    (hlast : (machine init).last tr = .ok bits) :
    bits.Readable ∧ bits.owner = true ∧ maxCharsPerFrame ≤ bits.bufSize ∧ bits.InRange := by
  have hinv := h.state_invariant
    (I := fun s => ∀ bits, s = .ok bits →
      bits.Readable ∧ bits.owner = true ∧ maxCharsPerFrame ≤ bits.bufSize ∧ bits.InRange) (by
      intro bits hbits
      obtain ⟨bits₀, hinit, hr, howner, hsize, hin⟩ := init_readable
      obtain rfl : bits₀ = bits := Except.ok.inj (hinit.symm.trans hbits)
      exact ⟨hr, howner, hsize.ge, hin⟩) (by
      intro s e s' hI hstep bits' hbits'
      obtain ⟨bits, hs, hm, hrange, hhandle⟩ := step_cases hstep
      obtain ⟨hr, howner, hsize, hin⟩ := hI bits hs
      rcases handle_spec hr hm with ⟨bits₀, hok, hr', howner', hsize', hin'⟩ | ⟨herror, _⟩
      · obtain rfl : bits₀ = bits' :=
          Except.ok.inj (hok.symm.trans (hhandle.trans hbits'))
        exact ⟨hr', howner'.trans howner, hsize.trans hsize', hin' hin hrange⟩
      · rw [← hhandle, herror] at hbits'
        cases hbits')
  exact hinv bits hlast

end Runs

section Fields
variable {bits : SpeexBits} {memory : Realloc} {fields : List (UInt32 × ℕ)}

/-- Numbers with their widths, packed one behind the other. -/
def packFields (memory : Realloc) : List (UInt32 × ℕ) → SpeexBits → Except Fault SpeexBits
  | [], bits => .ok bits
  | (data, nbBits) :: fields, bits => do
    let bits ← bits.pack memory data nbBits
    packFields memory fields bits

def unpackFields : List ℕ → SpeexBits → Except Fault (List UInt32 × SpeexBits)
  | [], bits => .ok ([], bits)
  | nbBits :: widths, bits => do
    let (data, bits) ← bits.unpackUnsigned nbBits
    let (rest, bits) ← unpackFields widths bits
    return (data :: rest, bits)

def bitsOfFields (fields : List (UInt32 × ℕ)) : List Bool :=
  fields.flatMap fun field => fieldBits field.2 field.1.toNat

def totalWidth (fields : List (UInt32 × ℕ)) : ℕ := (fields.map Prod.snd).sum

/-- What is left of a number in a field. -/
def fitField (field : UInt32 × ℕ) : UInt32 := UInt32.ofNat (field.1.toNat % 2 ^ field.2)

theorem length_bitsOfFields (fields : List (UInt32 × ℕ)) :
    (bitsOfFields fields).length = totalWidth fields := by
  induction fields with
  | nil => rfl
  | cons field fields ih =>
    rw [bitsOfFields, List.flatMap_cons, List.length_append, length_fieldBits, totalWidth,
      List.map_cons, List.sum_cons]
    exact congrArg (field.2 + ·) ih

/-- There is memory for more bits, in the buffer or behind it. -/
def HasRoom (bits : SpeexBits) (memory : Realloc) (n : ℕ) : Prop :=
  bits.owner = true ∧ memory ≠ none ∨ bits.position + n < 8 * bits.bufSize

theorem packFields_spec (hs : bits.Sound) (hwidths : ∀ field ∈ fields, field.2 ≤ 32)
    (hroom : bits.HasRoom memory (totalWidth fields)) :
    ∃ bits', packFields memory fields bits = .ok bits' ∧ bits'.Sound ∧
      bits.Appended (bitsOfFields fields) bits' := by
  induction fields generalizing bits with
  | nil => exact ⟨bits, rfl, hs, .refl bits⟩
  | cons field fields ih =>
    have htotal : totalWidth (field :: fields) = field.2 + totalWidth fields := by
      rw [totalWidth, List.map_cons, List.sum_cons, totalWidth]
    rw [htotal] at hroom
    rcases pack_spec memory field.1 hs (hwidths field (by simp)) with
      ⟨_, hmemory, hfull⟩ | ⟨packed, hpack, hs', happ⟩
    · exfalso
      rcases hroom with ⟨howner, hsome⟩ | hroom
      · exact hsome (hmemory howner)
      · omega
    · have hposition := happ.position
      have hgrown := happ.bufSize
      rw [length_fieldBits] at hposition
      have hroom' : packed.HasRoom memory (totalWidth fields) := by
        rcases hroom with ⟨howner, hsome⟩ | hroom
        · exact .inl ⟨happ.owner.trans howner, hsome⟩
        · right
          omega
      obtain ⟨bits', hrest, hs'', happ'⟩ :=
        ih hs' (fun f hf => hwidths f (List.mem_cons_of_mem _ hf)) hroom'
      refine ⟨bits', ?_, hs'', happ.trans happ'⟩
      rw [packFields, hpack, ok_bind, hrest]

theorem unpackFields_spec (hr : bits.Readable) (hoverflow : bits.overflow = false)
    (hend : bits.position + totalWidth fields ≤ bits.nbBits)
    (hbits : bitsFrom bits.chars bits.position (totalWidth fields) = bitsOfFields fields) :
    unpackFields (fields.map Prod.snd) bits =
      .ok (fields.map fitField, bits.seek (bits.position + totalWidth fields)) := by
  induction fields generalizing bits with
  | nil =>
    have hstay : bits.seek (bits.position + totalWidth []) = bits := seek_position hr.sound
    rw [hstay]
    rfl
  | cons field fields ih =>
    have htotal : totalWidth (field :: fields) = field.2 + totalWidth fields := by
      rw [totalWidth, List.map_cons, List.sum_cons, totalWidth]
    rw [htotal] at hend hbits ⊢
    rw [bitsFrom_add, bitsOfFields, List.flatMap_cons] at hbits
    obtain ⟨hfirst, hrest⟩ := List.append_inj hbits (by rw [length_bitsFrom, length_fieldBits])
    have hle : bits.position + field.2 ≤ bits.nbBits := by omega
    have hread := unpackUnsigned_of_le hr hoverflow hle
    rw [hfirst, spell_fieldBits] at hread
    have hplace := position_seek (bits.position + field.2) bits
    have hbehind := ih (readable_seek hr hle) hoverflow
      (by rw [hplace, Nat.add_assoc]; exact hend) (by rw [hplace]; exact hrest)
    rw [hplace, seek_seek, Nat.add_assoc] at hbehind
    rw [List.map_cons, unpackFields, hread, ok_bind]
    simp only [hbehind, ok_bind]
    rfl

/-- A frame of fields, as the encoder makes it. -/
def encodeFields (memory : Realloc) (fields : List (UInt32 × ℕ)) (maxNbytes : ℕ)
    (bits : SpeexBits) : Except Fault (List UInt8 × SpeexBits) := do
  let bits ← bits.reset
  let bits ← packFields memory fields bits
  bits.write memory maxNbytes

/-- The fields of a packet, as the decoder reads them. -/
def decodeFields (memory : Realloc) (encoded : List UInt8) (widths : List ℕ) (bits : SpeexBits) :
    Except Fault (List UInt32 × SpeexBits) := do
  let bits ← bits.readFrom memory encoded
  unpackFields widths bits

/-- There is memory for a frame of so many bits. -/
def Affords (memory : Realloc) (n : ℕ) : Prop := memory ≠ none ∨ n + 8 < 8 * maxCharsPerFrame

theorem encodeFields_spec {maxNbytes : ℕ} (hr : bits.Readable) (howner : bits.owner = true)
    (hsize : maxCharsPerFrame ≤ bits.bufSize) (hwidths : ∀ field ∈ fields, field.2 ≤ 32)
    (hmemory : Affords memory (totalWidth fields)) (hmax : totalWidth fields ≤ 8 * maxNbytes) :
    ∃ encoded bits', encodeFields memory fields maxNbytes bits = .ok (encoded, bits') ∧
      bits'.Readable ∧ bits'.owner = true ∧ maxCharsPerFrame ≤ bits'.bufSize ∧
      (bits.InRange → totalWidth fields + 8 < intRange → bits'.InRange) ∧
      bitString encoded = bitsOfFields fields ++ terminator (totalWidth fields % 8) := by
  obtain ⟨cleared, hreset, hr₀, hclean, hposition, hnbBits, howner', _, hsize'⟩ :=
    reset_spec hr.sound
  have hroom : cleared.HasRoom memory (totalWidth fields) := by
    rcases hmemory with hsome | hlt
    · exact .inl ⟨howner'.trans howner, hsome⟩
    · right
      omega
  obtain ⟨packed, hpack, hs, happ⟩ := packFields_spec hr₀.sound hwidths hroom
  have hend : packed.position = totalWidth fields := by
    rw [happ.position, hposition, Nat.zero_add, length_bitsOfFields]
  have hcount : packed.nbBits = totalWidth fields := by
    rw [happ.nbBits, hnbBits, Nat.zero_add, length_bitsOfFields]
  have hbit : packed.bitPtr = totalWidth fields % 8 := by
    have hplace := position_eq packed
    have hlt := hs.bitPtr_lt
    omega
  have hr₁ : packed.Readable := ⟨hs, by omega, hcount ▸ hend ▸ hs.position_le⟩
  have howner₁ : packed.owner = true := happ.owner.trans (howner'.trans howner)
  have hgrown : maxCharsPerFrame ≤ packed.bufSize := by
    have hle := happ.bufSize
    omega
  have hbits := happ.written hclean
  rw [hposition, length_bitsOfFields, ← hend] at hbits
  rcases write_spec memory maxNbytes hr₁ with
    ⟨full, bits', hwrite, hr', _, hkept, howner₂, hgrown', hlimit, hfull, hstream⟩ |
      ⟨_, hstarved⟩
  · have hnbytes : packed.nbytes = (totalWidth fields + 7) / 8 := by
      rw [nbytes, hcount, Nat.shiftRight_eq_div_pow]
      rfl
    have htake : full.take maxNbytes = full := by
      apply List.take_of_length_le
      rw [hfull, hnbytes]
      omega
    rw [htake] at hwrite
    refine ⟨full, bits', ?_, hr', howner₂.trans howner₁, hgrown.trans hgrown', ?_, ?_⟩
    · rw [encodeFields, hreset, ok_bind, hpack, ok_bind, hwrite]
    · intro hin hrange
      have hle := happ.bufSize_le
      exact hin.grow (totalWidth fields) (by omega) (by omega) (by omega)
    · rw [hstream (happ.clean hclean) (hend.trans hcount.symm), hbits, hbit]
  · exfalso
    rcases hmemory with hsome | hlt
    · exact hsome (hstarved.refused howner₁)
    · have hplace := position_eq packed
      have hatEnd := hstarved.atEnd
      omega

theorem decodeFields_spec {encoded : List UInt8} {behind : List Bool} (hr : bits.Readable)
    (howner : bits.owner = true) (hsize : maxCharsPerFrame ≤ bits.bufSize)
    (hmemory : memory ≠ none ∨ encoded.length ≤ maxCharsPerFrame)
    (hbits : bitString encoded = bitsOfFields fields ++ behind) :
    ∃ bits', decodeFields memory encoded (fields.map Prod.snd) bits =
        .ok (fields.map fitField, bits') ∧
      bits'.Readable ∧ bits'.owner = true ∧ maxCharsPerFrame ≤ bits'.bufSize ∧
      (bits.InRange → 8 * encoded.length < intRange → bits'.InRange) ∧
      bits'.overflow = false ∧ bits'.remaining = behind.length ∧
      bitsFrom bits'.chars bits'.position behind.length = behind := by
  obtain ⟨nchars, loaded, hread, hr', hposition, hoverflow, hnbBits, howner', hgrown, hlimit,
    hcount, hsame⟩ := readFrom_spec memory encoded hr.sound
  have hall : nchars = encoded.length := by
    rcases hcount with hall | ⟨_, hnone, hlarge⟩
    · exact hall
    · rcases hmemory with hsome | hle
      · exact absurd (hnone howner) hsome
      · omega
  have hlength : 8 * encoded.length = totalWidth fields + behind.length := by
    have hcongr := congrArg List.length hbits
    rwa [bitString, length_bitsFrom, List.length_append, length_bitsOfFields] at hcongr
  have hstream : bitsFrom loaded.chars 0 (totalWidth fields + behind.length) =
      bitsOfFields fields ++ behind := by
    rw [← hlength, ← hbits, bitString]
    apply bitsFrom_congr
    intro i hi
    exact hsame _ (by omega)
  rw [bitsFrom_add] at hstream
  obtain ⟨hfields, hbehind⟩ := List.append_inj hstream (by rw [length_bitsFrom, length_bitsOfFields])
  have hend : totalWidth fields ≤ loaded.nbBits := by omega
  have hhere : bitsFrom loaded.chars loaded.position (totalWidth fields) = bitsOfFields fields := by
    rw [hposition]
    exact hfields
  have hunpack := unpackFields_spec hr' hoverflow (by omega) hhere
  rw [hposition, Nat.zero_add] at hunpack
  have hplace := position_seek (totalWidth fields) loaded
  refine ⟨loaded.seek (totalWidth fields), ?_, readable_seek hr' hend, howner'.trans howner,
    hsize.trans hgrown, ?_, hoverflow, ?_, ?_⟩
  · rw [decodeFields, hread, ok_bind, hunpack]
  · intro hin hrange
    have hnbBits' : loaded.nbBits < intRange := by omega
    have hbufSize := hin.bufSize
    exact ⟨hnbBits', show loaded.bufSize < intRange by omega⟩
  · have hseek : (loaded.seek (totalWidth fields)).overflow = false := hoverflow
    rw [remaining, hseek, hplace]
    change (loaded.nbBits : ℤ) - _ = _
    omega
  · rw [hplace, ← Nat.zero_add (totalWidth fields)]
    exact hbehind

/-- Fields that are packed into a packet are unpacked from it, and behind them is the terminator,
whatever the streams on both sides have been used for before. -/
theorem decodeFields_of_encodeFields {tr tr' : History (Except Fault SpeexBits) Event}
    {encoder decoder : SpeexBits} {memory' : Realloc} {maxNbytes : ℕ}
    (h : (machine init).Run tr) (hlast : (machine init).last tr = .ok encoder)
    (h' : (machine init).Run tr') (hlast' : (machine init).last tr' = .ok decoder)
    (hwidths : ∀ field ∈ fields, field.2 ≤ 32) (hrange : totalWidth fields + 8 < intRange)
    (hmemory : Affords memory (totalWidth fields)) (hmemory' : Affords memory' (totalWidth fields))
    (hmax : totalWidth fields ≤ 8 * maxNbytes) :
    ∃ encoded encoder' decoder',
      encodeFields memory fields maxNbytes encoder = .ok (encoded, encoder') ∧
      encoder'.InRange ∧
      bitString encoded = bitsOfFields fields ++ terminator (totalWidth fields % 8) ∧
      decodeFields memory' encoded (fields.map Prod.snd) decoder =
        .ok (fields.map fitField, decoder') ∧
      decoder'.InRange ∧
      decoder'.overflow = false ∧
      decoder'.remaining = (terminator (totalWidth fields % 8)).length ∧
      bitsFrom decoder'.chars decoder'.position (terminator (totalWidth fields % 8)).length =
        terminator (totalWidth fields % 8) := by
  obtain ⟨hr, howner, hsize, hin⟩ := readable_of_run h hlast
  obtain ⟨hr', howner', hsize', hin'⟩ := readable_of_run h' hlast'
  obtain ⟨encoded, encoder', hencode, _, _, _, hinEncoder, hbits⟩ :=
    encodeFields_spec hr howner hsize hwidths hmemory hmax
  have hlength := congrArg List.length hbits
  rw [bitString, length_bitsFrom, List.length_append, length_bitsOfFields,
    length_terminator (Nat.mod_lt _ (by decide))] at hlength
  have hfits : memory' ≠ none ∨ encoded.length ≤ maxCharsPerFrame := by
    rcases hmemory' with hsome | hlt
    · exact .inl hsome
    · right
      omega
  obtain ⟨decoder', hdecode, _, _, _, hinDecoder, hoverflow, hremaining, hbehind⟩ :=
    decodeFields_spec hr' howner' hsize' hfits hbits
  exact ⟨encoded, encoder', decoder', hencode, hinEncoder hin hrange, hbits, hdecode,
    hinDecoder hin' (by omega), hoverflow, hremaining, hbehind⟩

theorem exists_run_of_exec {α : Type} (es : List Event) (f : SpeexBits → α) (a : α)
    (h : (((machine init).exec es).bind fun tr => ((machine init).last tr).toOption.map f) =
      some a) :
    ∃ tr bits, (machine init).Run tr ∧ tr.map Prod.fst = es.reverse ∧
      (machine init).last tr = .ok bits ∧ f bits = a := by
  obtain ⟨tr, htr, hmap⟩ := Option.bind_eq_some_iff.mp h
  obtain ⟨bits, hbits, hf⟩ := Option.map_eq_some_iff.mp hmap
  refine ⟨tr, bits, Machine.run_of_exec htr, Machine.map_fst_of_exec htr, ?_, hf⟩
  cases hlast : (machine init).last tr with
  | error fault =>
    rw [hlast] at hbits
    cases hbits
  | ok bits' =>
    rw [hlast] at hbits
    exact congrArg Except.ok (Option.some.inj hbits)

/-- Fields of three and ten bits, and one number that does not fit into its field, in streams that
other packets have gone through. -/
theorem decodeFields_of_three : ∃ tr tr' encoder decoder,
    tr.map Prod.fst = [.write none 20, .pack none 1000 11, .pack none 77 9] ∧
    (machine init).last tr = .ok encoder ∧ encoder.chars.take 3 = [38, 190, 135] ∧
    tr'.map Prod.fst = [.unpackUnsigned 9, .unpackUnsigned 30, .readFrom none [200, 100, 50, 25]] ∧
    (machine init).last tr' = .ok decoder ∧ decoder.overflow = true ∧
    ∃ encoded encoder' decoder',
      encodeFields none [(5, 3), (1000, 10), (300, 8)] 20 encoder = .ok (encoded, encoder') ∧
      encoder'.InRange ∧
      bitString encoded = bitsOfFields [(5, 3), (1000, 10), (300, 8)] ++ [false, true, true] ∧
      decodeFields none encoded [3, 10, 8] decoder = .ok ([5, 1000, 44], decoder') ∧
      decoder'.InRange ∧ decoder'.overflow = false ∧ decoder'.remaining = 3 ∧
      bitsFrom decoder'.chars decoder'.position 3 = [false, true, true] := by
  obtain ⟨tr, encoder, hrun, htr, hlast, hchars⟩ := exists_run_of_exec
    [.pack none 77 9, .pack none 1000 11, .write none 20] (fun bits => bits.chars.take 3)
    [38, 190, 135] (by decide +kernel)
  obtain ⟨tr', decoder, hrun', htr', hlast', hoverflow⟩ := exists_run_of_exec
    [.readFrom none [200, 100, 50, 25], .unpackUnsigned 30, .unpackUnsigned 9] overflow true
    (by decide +kernel)
  exact ⟨tr, tr', encoder, decoder, htr, hlast, hchars, htr', hlast', hoverflow,
    decodeFields_of_encodeFields hrun hlast hrun' hlast' (by decide) (by decide)
      (.inr (by decide)) (.inr (by decide)) (by decide)⟩

end Fields

end SpeexBits
end SignalIOS.Audio
