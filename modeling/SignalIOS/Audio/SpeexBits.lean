import SignalIOS.Lib.BitStrings
import SignalIOS.Lib.RingBuffer
import SignalIOS.Lib.Runs

/-! The bit streams of the speech codec. They keep their buffers from frame to frame. -/
namespace SignalIOS.Audio
open SignalIOS.Lib

/-- What C gives no meaning to: an access outside of a buffer. And a loop that does not end. -/
inductive Fault
  | outOfBounds
  | endless
  deriving DecidableEq, Repr

/-- What `realloc` answers: no memory, or memory in which something stands behind the old bytes. -/
abbrev Realloc := Option (ℕ → UInt8)

/-- Below this, natural numbers are what the code counts with. -/
def intRange : ℕ := 2 ^ 31

/-- The counters are those of the code as long as they are below `intRange`. -/
structure SpeexBits where
  chars : List UInt8
  nbBits : ℕ
  charPtr : ℕ
  bitPtr : ℕ
  owner : Bool
  overflow : Bool
  bufSize : ℕ
  deriving DecidableEq, Repr

namespace SpeexBits

def maxCharsPerFrame : ℕ := 2000

def bitsPerChar : ℕ := 8

def load (bits : SpeexBits) (i : ℕ) : Except Fault UInt8 :=
  if i < bits.chars.length then .ok (bits.chars.getD i 0) else .error .outOfBounds

def store (bits : SpeexBits) (i : ℕ) (char : UInt8) : Except Fault SpeexBits :=
  if i < bits.chars.length then .ok { bits with chars := bits.chars.set i char }
  else .error .outOfBounds

theorem load_of_lt {bits : SpeexBits} {i : ℕ} (h : i < bits.chars.length) :
    bits.load i = .ok (bits.chars.getD i 0) := if_pos h

theorem store_of_lt {bits : SpeexBits} {i : ℕ} {char : UInt8} (h : i < bits.chars.length) :
    bits.store i char = .ok { bits with chars := bits.chars.set i char } := if_pos h

theorem ok_bind {α β : Type} (a : α) (f : α → Except Fault β) : (Except.ok a >>= f) = f a := rfl

/-- `speex_realloc` to another size, which becomes that of the buffer. -/
def resize (bits : SpeexBits) (size : ℕ) (fresh : ℕ → UInt8) : SpeexBits :=
  { bits with
    chars := (List.range size).map fun i => bits.chars.getD i (fresh i)
    bufSize := size }

/-- `speex_bits_reset`. Only the first byte is cleared. -/
def reset (bits : SpeexBits) : Except Fault SpeexBits := do
  let bits ← bits.store 0 0
  return { bits with nbBits := 0, charPtr := 0, bitPtr := 0, overflow := false }

def rewind (bits : SpeexBits) : SpeexBits :=
  { bits with charPtr := 0, bitPtr := 0, overflow := false }

/-- `speex_bits_init` with memory that is cleared, as that of `calloc`. -/
def init : Except Fault SpeexBits :=
  reset
    { chars := List.replicate maxCharsPerFrame 0
      nbBits := 0
      charPtr := 0
      bitPtr := 0
      owner := true
      overflow := false
      bufSize := maxCharsPerFrame }

/-- `speex_bits_init_buffer`. -/
def initBuffer (buff : List UInt8) : Except Fault SpeexBits :=
  reset
    { chars := buff
      nbBits := 0
      charPtr := 0
      bitPtr := 0
      owner := false
      overflow := false
      bufSize := buff.length }

/-- How many of the characters of a packet are read, and the buffer that they are read into. What
does not fit, and for which there is no memory, is cut off. -/
def makeRoom (memory : Realloc) (nchars : ℕ) (bits : SpeexBits) : ℕ × SpeexBits :=
  if nchars > bits.bufSize then
    if bits.owner then
      match memory with
      | some fresh => (nchars, bits.resize nchars fresh)
      | none => (bits.bufSize, bits)
    else (bits.bufSize, bits)
  else (nchars, bits)

/-- `speex_bits_read_from`. -/
def readFrom (memory : Realloc) (chars : List UInt8) (bits : SpeexBits) : Except Fault SpeexBits :=
  let (nchars, bits) := bits.makeRoom memory chars.length
  if nchars ≤ bits.chars.length then
    .ok
      { bits with
        chars := overwrite bits.chars 0 (chars.take nchars)
        nbBits := nchars <<< 3
        charPtr := 0
        bitPtr := 0
        overflow := false }
  else .error .outOfBounds

/-- The loop of `speex_bits_pack`. -/
def packBits (d : UInt32) : ℕ → SpeexBits → Except Fault SpeexBits
  | 0, bits => .ok bits
  | nbBits + 1, bits => do
    let bit := (d >>> UInt32.ofNat nbBits) &&& 1
    let char ← bits.load bits.charPtr
    let bits ← bits.store bits.charPtr
      (char ||| (bit <<< UInt32.ofNat (bitsPerChar - 1 - bits.bitPtr)).toUInt8)
    let bits := { bits with bitPtr := bits.bitPtr + 1 }
    let bits ←
      if bits.bitPtr = bitsPerChar then
        store { bits with bitPtr := 0, charPtr := bits.charPtr + 1 } (bits.charPtr + 1) 0
      else .ok bits
    packBits d nbBits { bits with nbBits := bits.nbBits + 1 }

/-- `speex_bits_pack`. Where the buffer is too small and does not grow, nothing is packed. -/
def pack (memory : Realloc) (data : UInt32) (nbBits : ℕ) (bits : SpeexBits) :
    Except Fault SpeexBits :=
  if bits.charPtr + ((nbBits + bits.bitPtr) >>> 3) ≥ bits.bufSize then
    if bits.owner then
      match memory with
      | some fresh => packBits data nbBits (bits.resize (((bits.bufSize + 5) * 3) >>> 1) fresh)
      | none => .ok bits
    else .ok bits
  else packBits data nbBits bits

/-- The loop of `speex_bits_insert_terminator`. There are at most eight bits to the end of a byte.
Where they do not get there, no round packs anything. -/
def fillChar (memory : Realloc) : ℕ → SpeexBits → Except Fault SpeexBits
  | 0, bits => if bits.bitPtr = 0 then .ok bits else .error .endless
  | rounds + 1, bits =>
    if bits.bitPtr = 0 then .ok bits
    else do
      let bits ← bits.pack memory 1 1
      fillChar memory rounds bits

/-- `speex_bits_insert_terminator`. -/
def insertTerminator (memory : Realloc) (bits : SpeexBits) : Except Fault SpeexBits := do
  let bits ← if bits.bitPtr ≠ 0 then bits.pack memory 0 1 else .ok bits
  fillChar memory bitsPerChar bits

/-- `speex_bits_write`. The pointers are put back behind the terminator, its bits are not. -/
def write (memory : Realloc) (maxNbytes : ℕ) (bits : SpeexBits) :
    Except Fault (List UInt8 × SpeexBits) := do
  let terminated ← bits.insertTerminator memory
  let bits :=
    { terminated with bitPtr := bits.bitPtr, charPtr := bits.charPtr, nbBits := bits.nbBits }
  let maxNchars := min maxNbytes ((bits.nbBits + bitsPerChar - 1) >>> 3)
  if maxNchars ≤ bits.chars.length then return (bits.chars.take maxNchars, bits)
  else throw .outOfBounds

/-- The place of the next bit, `(charPtr << 3) + bitPtr`. -/
def position (bits : SpeexBits) : ℕ := (bits.charPtr <<< 3) + bits.bitPtr

/-- What the reading functions do first. -/
def checkOverflow (n : ℕ) (bits : SpeexBits) : SpeexBits :=
  if bits.position + n > bits.nbBits then { bits with overflow := true } else bits

def nextBit (bits : SpeexBits) : SpeexBits :=
  if bits.bitPtr + 1 = bitsPerChar then { bits with bitPtr := 0, charPtr := bits.charPtr + 1 }
  else { bits with bitPtr := bits.bitPtr + 1 }

def currentBit (bits : SpeexBits) : Except Fault UInt32 := do
  let char ← bits.load bits.charPtr
  return ((char >>> UInt8.ofNat (bitsPerChar - 1 - bits.bitPtr)) &&& 1).toUInt32

/-- The loop of `speex_bits_unpack_unsigned`. -/
def unpackBits : ℕ → UInt32 → SpeexBits → Except Fault (UInt32 × SpeexBits)
  | 0, d, bits => .ok (d, bits)
  | nbBits + 1, d, bits => do
    let bit ← bits.currentBit
    unpackBits nbBits ((d <<< 1) ||| bit) bits.nextBit

/-- `speex_bits_unpack_unsigned`. -/
def unpackUnsigned (nbBits : ℕ) (bits : SpeexBits) : Except Fault (UInt32 × SpeexBits) :=
  let bits := bits.checkOverflow nbBits
  if bits.overflow then .ok (0, bits) else unpackBits nbBits 0 bits

/-- `speex_bits_unpack_signed`. -/
def unpackSigned (nbBits : ℕ) (bits : SpeexBits) : Except Fault (UInt32 × SpeexBits) := do
  let (d, bits) ← bits.unpackUnsigned nbBits
  if d >>> UInt32.ofNat (nbBits - 1) ≠ 0 then return (d ||| ((-1) <<< UInt32.ofNat nbBits), bits)
  else return (d, bits)

/-- `speex_bits_peek_unsigned`: the same loop on copies of the pointers. -/
def peekUnsigned (nbBits : ℕ) (bits : SpeexBits) : Except Fault (UInt32 × SpeexBits) :=
  let bits := bits.checkOverflow nbBits
  if bits.overflow then .ok (0, bits)
  else do
    let (d, _) ← unpackBits nbBits 0 bits
    return (d, bits)

/-- `speex_bits_peek`. -/
def peek (bits : SpeexBits) : Except Fault (UInt32 × SpeexBits) :=
  let bits := bits.checkOverflow 1
  if bits.overflow then .ok (0, bits)
  else do
    let bit ← bits.currentBit
    return (bit, bits)

/-- `speex_bits_advance`. The number of bits may be negative. -/
def advance (n : ℤ) (bits : SpeexBits) : SpeexBits :=
  if bits.position + n > bits.nbBits ∨ bits.overflow then { bits with overflow := true }
  else
    { bits with
      charPtr := (bits.charPtr + (bits.bitPtr + n) / 8).toNat
      bitPtr := ((bits.bitPtr + n) % 8).toNat }

/-- `speex_bits_remaining`. -/
def remaining (bits : SpeexBits) : ℤ :=
  if bits.overflow then -1 else bits.nbBits - bits.position

def nbytes (bits : SpeexBits) : ℕ := (bits.nbBits + bitsPerChar - 1) >>> 3

section Steps
variable {bits bits' bits'' : SpeexBits} {s t : List Bool} {n i : ℕ}

theorem position_eq (bits : SpeexBits) : bits.position = 8 * bits.charPtr + bits.bitPtr := by
  rw [position, Nat.shiftLeft_eq]
  omega

/-- What every function keeps. -/
structure Sound (bits : SpeexBits) : Prop where
  size : bits.chars.length = bits.bufSize
  nonempty : 0 < bits.bufSize
  bitPtr_lt : bits.bitPtr < 8
  position_le : bits.position ≤ 8 * bits.bufSize

/-- The place of the next bit is in the buffer, and the rest of its byte is zero. -/
structure Clean (bits : SpeexBits) : Prop where
  inBuffer : bits.charPtr < bits.chars.length
  zeros : ∀ i, bits.position ≤ i → i < 8 * (bits.charPtr + 1) → bitAt bits.chars i = false

/-- Bits have been packed. They stand where the next bit was to go, if that place was clean. -/
structure Appended (bits : SpeexBits) (s : List Bool) (bits' : SpeexBits) : Prop where
  position : bits'.position = bits.position + s.length
  nbBits : bits'.nbBits = bits.nbBits + s.length
  owner : bits'.owner = bits.owner
  overflow : bits'.overflow = bits.overflow
  bufSize : bits.bufSize ≤ bits'.bufSize
  bufSize_le : bits'.bufSize ≤ max bits.bufSize (3 * (bits'.position / 8 + 9) / 2)
  kept : ∀ i < bits.position, bitAt bits'.chars i = bitAt bits.chars i
  clean : bits.Clean → bits'.Clean
  written : bits.Clean → bitsFrom bits'.chars bits.position s.length = s

theorem Appended.refl (bits : SpeexBits) : bits.Appended [] bits where
  position := rfl
  nbBits := rfl
  owner := rfl
  overflow := rfl
  bufSize := Nat.le_refl _
  bufSize_le := Nat.le_max_left _ _
  kept _ _ := rfl
  clean h := h
  written _ := rfl

theorem Appended.trans (h : bits.Appended s bits') (h' : bits'.Appended t bits'') :
    bits.Appended (s ++ t) bits'' where
  position := by rw [h'.position, h.position, List.length_append, Nat.add_assoc]
  nbBits := by rw [h'.nbBits, h.nbBits, List.length_append, Nat.add_assoc]
  owner := h'.owner.trans h.owner
  overflow := h'.overflow.trans h.overflow
  bufSize := h.bufSize.trans h'.bufSize
  bufSize_le := by
    have hle := h.bufSize_le
    have hle' := h'.bufSize_le
    have hplace := h'.position
    omega
  kept i hi := by rw [h'.kept i (by rw [h.position]; omega), h.kept i hi]
  clean hc := h'.clean (h.clean hc)
  written hc := by
    have hbefore : bitsFrom bits''.chars bits.position s.length = s := by
      have hsame : bitsFrom bits''.chars bits.position s.length =
          bitsFrom bits'.chars bits.position s.length := by
        apply bitsFrom_congr
        intro i hi
        exact h'.kept _ (by rw [h.position]; omega)
      rw [hsame, h.written hc]
    rw [List.length_append, bitsFrom_add, hbefore, ← h.position, h'.written (h.clean hc)]

theorem length_resize (bits : SpeexBits) (size : ℕ) (fresh : ℕ → UInt8) :
    (bits.resize size fresh).chars.length = size := by
  simp [SpeexBits.resize]

theorem Sound.resize (hs : bits.Sound) {size : ℕ} (h : bits.bufSize ≤ size) (fresh : ℕ → UInt8) :
    (bits.resize size fresh).Sound :=
  ⟨length_resize bits size fresh, Nat.lt_of_lt_of_le hs.nonempty h, hs.bitPtr_lt,
    hs.position_le.trans (Nat.mul_le_mul_left 8 h)⟩

/-- A larger buffer holds the same bits. -/
theorem Sound.appended_resize (hs : bits.Sound) {size : ℕ} (h : bits.bufSize ≤ size)
    (hsize : size ≤ 3 * (bits.position / 8 + 9) / 2) (fresh : ℕ → UInt8) :
    bits.Appended [] (bits.resize size fresh) := by
  have hsame : ∀ i < 8 * bits.bufSize,
      bitAt (bits.resize size fresh).chars i = bitAt bits.chars i := by
    intro i hi
    have hold : i / 8 < bits.chars.length := by rw [hs.size]; omega
    have hnew : i / 8 < size := by omega
    unfold bitAt
    rw [SpeexBits.resize, List.getD_eq_getElem?_getD, List.getElem?_map, List.getElem?_range hnew,
      Option.map_some, Option.getD_some, List.getD_eq_getElem _ _ hold, List.getD_eq_getElem _ _ hold]
  have hposition := hs.position_le
  refine ⟨rfl, rfl, rfl, rfl, h, hsize.trans (Nat.le_max_right _ _),
    fun i hi => hsame i (by omega), ?_, fun _ => rfl⟩
  intro hc
  have hin := hc.inBuffer
  rw [hs.size] at hin
  constructor
  · rw [length_resize]
    exact Nat.lt_of_lt_of_le hin h
  · intro i hi hbyte
    have hbyte' : i < 8 * (bits.charPtr + 1) := hbyte
    rw [hsame i (by omega)]
    exact hc.zeros i hi hbyte'

/-- What one round of the loop of `pack` does. -/
def putBit (bits : SpeexBits) (bit : Bool) : SpeexBits :=
  let chars := bits.chars.set bits.charPtr
    (bits.chars.getD bits.charPtr 0 ||| markAt bits.bitPtr bit)
  if bits.bitPtr + 1 = 8 then
    { bits with
      chars := chars.set (bits.charPtr + 1) 0
      nbBits := bits.nbBits + 1
      charPtr := bits.charPtr + 1
      bitPtr := 0 }
  else { bits with chars, nbBits := bits.nbBits + 1, bitPtr := bits.bitPtr + 1 }

theorem shiftedBit (d : UInt32) (hn : n < 32) :
    (d >>> UInt32.ofNat n) &&& 1 = if d.toNat.testBit n then 1 else 0 := by
  have hshift : (UInt32.ofNat n).toNat % 32 = n := by
    rw [UInt32.toNat_ofNat_of_lt' (Nat.lt_trans hn (by decide)), Nat.mod_eq_of_lt hn]
  have hbit : (d.toNat >>> n) &&& 1 = (d.toNat.testBit n).toNat := by
    rw [Nat.and_one_is_mod, Nat.shiftRight_eq_div_pow, Nat.toNat_testBit]
  apply UInt32.toNat_inj.mp
  rw [UInt32.toNat_and, UInt32.toNat_shiftRight, hshift]
  apply hbit.trans
  cases d.toNat.testBit n <;> rfl

theorem markAt_shiftedBit (d : UInt32) (hn : n < 32) (hi : i < 8) :
    (((d >>> UInt32.ofNat n) &&& 1) <<< UInt32.ofNat (bitsPerChar - 1 - i)).toUInt8 =
      markAt i (d.toNat.testBit n) := by
  have hmark : ∀ k < 8, ((1 : UInt32) <<< UInt32.ofNat (bitsPerChar - 1 - k)).toUInt8 =
      markAt k true := by decide
  rw [shiftedBit d hn]
  cases d.toNat.testBit n with
  | false => simp [markAt]
  | true => exact hmark i hi

theorem packBits_succ (d : UInt32) (hs : bits.Sound) (hn : n < 32)
    (hroom : bits.position + 1 < 8 * bits.bufSize) :
    packBits d (n + 1) bits = packBits d n (bits.putBit (d.toNat.testBit n)) := by
  have hplace := position_eq bits
  have hbit := hs.bitPtr_lt
  have hin : bits.charPtr < bits.chars.length := by rw [hs.size]; omega
  rw [packBits, load_of_lt hin, ok_bind, markAt_shiftedBit d hn hbit, store_of_lt hin, ok_bind,
    putBit]
  by_cases hlast : bits.bitPtr + 1 = 8
  · have hnext : bits.charPtr + 1 < bits.chars.length := by rw [hs.size]; omega
    simp only [bitsPerChar, hlast, ↓reduceIte]
    rw [store_of_lt (by simpa using hnext), ok_bind]
  · simp only [bitsPerChar, hlast, ↓reduceIte, ok_bind]

theorem bitAt_putBit (hs : bits.Sound) (hroom : bits.position + 1 < 8 * bits.bufSize)
    (bit : Bool) (i : ℕ) : bitAt (bits.putBit bit).chars i =
      (decide (bits.bitPtr + 1 = 8 → i / 8 ≠ bits.charPtr + 1) &&
        (bitAt bits.chars i || (decide (i = bits.position) && bit))) := by
  have hplace := position_eq bits
  have hbit := hs.bitPtr_lt
  have hchar : bits.position / 8 = bits.charPtr := by omega
  have hmark : markAt bits.bitPtr bit = markAt bits.position bit := by
    have hmod : bits.bitPtr % 8 = bits.position % 8 := by omega
    rw [markAt, markAt, hmod]
  have hin : bits.position / 8 < bits.chars.length := by rw [hs.size]; omega
  have hset := bitAt_set_or hin bit
  rw [hchar] at hset
  rw [putBit, hmark]
  by_cases hlast : bits.bitPtr + 1 = 8
  · have hnext : bits.charPtr + 1 < bits.chars.length := by rw [hs.size]; omega
    rw [if_pos hlast]
    simp only
    rw [bitAt_set_zero (by rwa [List.length_set]), hset]
    simp [hlast]
  · rw [if_neg hlast]
    simp only
    rw [hset]
    simp [hlast]

theorem Sound.putBit (hs : bits.Sound) (hroom : bits.position + 1 < 8 * bits.bufSize)
    (bit : Bool) : (bits.putBit bit).Sound ∧ (bits.putBit bit).bufSize = bits.bufSize ∧
      bits.Appended [bit] (bits.putBit bit) := by
  have hplace := position_eq bits
  have hbit := hs.bitPtr_lt
  have hread := bitAt_putBit hs hroom bit
  have hlength : (bits.putBit bit).chars.length = bits.chars.length := by
    unfold SpeexBits.putBit
    split <;> simp
  have hfields : (bits.putBit bit).position = bits.position + 1 ∧
      (bits.putBit bit).bitPtr < 8 ∧ (bits.putBit bit).charPtr ≤ bits.charPtr + 1 ∧
      ((bits.putBit bit).charPtr = bits.charPtr + 1 → bits.bitPtr + 1 = 8) := by
    rw [position_eq (bits.putBit bit)]
    unfold SpeexBits.putBit
    split <;> simp <;> omega
  have hrest : (bits.putBit bit).nbBits = bits.nbBits + 1 ∧
      (bits.putBit bit).owner = bits.owner ∧ (bits.putBit bit).overflow = bits.overflow ∧
      (bits.putBit bit).bufSize = bits.bufSize := by
    unfold SpeexBits.putBit
    split <;> simp
  obtain ⟨hposition, hbit', hchar, hlast⟩ := hfields
  obtain ⟨hnbBits, howner, hoverflow, hbufSize⟩ := hrest
  have hplace' := position_eq (bits.putBit bit)
  refine ⟨⟨?_, ?_, hbit', ?_⟩, hbufSize, ⟨hposition, hnbBits, howner, hoverflow, hbufSize.ge,
    hbufSize.le.trans (Nat.le_max_left _ _), ?_, ?_, ?_⟩⟩
  · rw [hlength, hbufSize, hs.size]
  · rw [hbufSize]
    exact hs.nonempty
  · rw [hposition, hbufSize]
    omega
  · intro i hi
    have hbefore : bits.bitPtr + 1 = 8 → i / 8 ≠ bits.charPtr + 1 := by omega
    rw [hread, decide_eq_true hbefore, decide_eq_false (by omega), Bool.true_and, Bool.false_and,
      Bool.or_false]
  · intro hc
    have hin : (bits.putBit bit).charPtr < (bits.putBit bit).chars.length := by
      rw [hlength, hs.size]
      omega
    refine ⟨hin, fun i hi hbyte => ?_⟩
    rw [hread]
    by_cases hnext : bits.bitPtr + 1 = 8 ∧ i / 8 = bits.charPtr + 1
    · have hcleared : ¬ (bits.bitPtr + 1 = 8 → i / 8 ≠ bits.charPtr + 1) := by omega
      rw [decide_eq_false hcleared, Bool.false_and]
    · have hzero := hc.zeros i (by omega) (by omega)
      have hne : i ≠ bits.position := by omega
      rw [hzero, decide_eq_false hne, Bool.false_and, Bool.or_false, Bool.and_false]
  · intro hc
    have hzero := hc.zeros bits.position (Nat.le_refl _) (by omega)
    have hsame : bits.bitPtr + 1 = 8 → bits.position / 8 ≠ bits.charPtr + 1 := by omega
    rw [List.length_singleton, bitsFrom, bitsFrom, hread, hzero, decide_eq_true hsame]
    simp

/-- The bits of a number are appended, where there is room for them. -/
theorem packBits_spec (d : UInt32) (hs : bits.Sound) (hn : n ≤ 32)
    (hroom : bits.position + n < 8 * bits.bufSize) :
    ∃ bits', packBits d n bits = .ok bits' ∧ bits'.Sound ∧
      bits.Appended (fieldBits n d.toNat) bits' := by
  induction n generalizing bits with
  | zero => exact ⟨bits, rfl, hs, .refl bits⟩
  | succ n ih =>
    have hput := hs.putBit (by omega) (d.toNat.testBit n)
    obtain ⟨hsound, hsize, happ⟩ := hput
    have hposition : (bits.putBit (d.toNat.testBit n)).position = bits.position + 1 := happ.position
    obtain ⟨bits', hpack, hsound', happ'⟩ := ih hsound (by omega) (by omega)
    refine ⟨bits', ?_, hsound', happ.trans happ'⟩
    rw [packBits_succ d hs (by omega) (by omega), hpack]

/-- `pack` appends the bits of a number, or does nothing where there is no room for them. -/
theorem pack_spec (memory : Realloc) (data : UInt32) (hs : bits.Sound) (hn : n ≤ 32) :
    (bits.pack memory data n = .ok bits ∧ (bits.owner = true → memory = none) ∧
      bits.bufSize ≤ (bits.position + n) / 8) ∨
    ∃ bits', bits.pack memory data n = .ok bits' ∧ bits'.Sound ∧
      bits.Appended (fieldBits n data.toNat) bits' := by
  have hplace := position_eq bits
  have hbit := hs.bitPtr_lt
  have hposition := hs.position_le
  have hend : bits.charPtr + ((n + bits.bitPtr) >>> 3) = (bits.position + n) / 8 := by
    rw [Nat.shiftRight_eq_div_pow]
    omega
  unfold pack
  rw [hend]
  by_cases hroom : (bits.position + n) / 8 ≥ bits.bufSize
  · rw [if_pos hroom]
    cases howner : bits.owner with
    | false => exact .inl ⟨rfl, by simp, hroom⟩
    | true =>
      cases memory with
      | none => exact .inl ⟨rfl, by simp, hroom⟩
      | some fresh =>
        right
        have hsize : ((bits.bufSize + 5) * 3) >>> 1 = (bits.bufSize + 5) * 3 / 2 := by
          rw [Nat.shiftRight_eq_div_pow]
        rw [hsize]
        have hlarger : bits.bufSize ≤ (bits.bufSize + 5) * 3 / 2 := by omega
        have hsound := hs.resize hlarger fresh
        have happ := hs.appended_resize hlarger (by omega) fresh
        have hplace' := happ.position
        obtain ⟨bits', hpack, hsound', happ'⟩ := packBits_spec data hsound hn (by
          rw [hplace']
          change bits.position + 0 + n < 8 * ((bits.bufSize + 5) * 3 / 2)
          omega)
        exact ⟨bits', hpack, hsound', happ.trans happ'⟩
  · right
    rw [if_neg hroom]
    exact packBits_spec data hs hn (by omega)

end Steps

end SpeexBits
end SignalIOS.Audio
