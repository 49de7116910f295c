import Mathlib.Algebra.Ring.Nat
import SignalIOS.Lib.Methods
import SignalIOS.Lib.RingBuffer
import SignalIOS.Util.NSData

/-! Cyclic buffers of bytes. `NSUInteger` has 64 bits, `readOffset` and `count` have 32. -/
namespace SignalIOS
open SignalIOS.Lib

/-- How a method ends that does not return: it raises, divides by zero, or an `assert` fails. -/
inductive Abort
  | raised (exception : Exception)
  | divisionByZero
  | assertionFailed
  deriving DecidableEq, Repr

def Abort.of {α : Type} (x : Throws α) : Except Abort α := x.mapError Abort.raised

/-- `dividend % divisor`. -/
def remainder (dividend divisor : ℕ) : Except Abort ℕ :=
  if divisor = 0 then .error .divisionByZero else .ok (dividend % divisor)

structure CyclicalBuffer where
  buffer : NSData
  readOffset : UInt32
  count : UInt32

namespace CyclicalBuffer

def initialCapacity : ℕ := 100

/-- `init`, for any capacity in place of `INITIAL_CAPACITY`. -/
def withCapacity (capacity : ℕ) : CyclicalBuffer := ⟨List.replicate capacity 0, 0, 0⟩

def init : CyclicalBuffer := withCapacity initialCapacity

def capacity (b : CyclicalBuffer) : ℕ := b.buffer.length

def readSlack (b : CyclicalBuffer) : ℕ := b.capacity - b.readOffset.toNat

/-- The two calls of `replaceBytesInRange:withBytes:` that copy the oldest bytes to `target`. -/
def copyOldest (b : CyclicalBuffer) (target : NSData) (length : ℕ) : NSData :=
  let target := overwrite target 0
    (stretch b.buffer b.readOffset.toNat (min b.readSlack length))
  if b.readSlack < length then
    overwrite target b.readSlack (stretch b.buffer 0 (length - b.readSlack))
  else target

/-- The larger buffer that `enqueueData:` goes on with. -/
def grown (b : CyclicalBuffer) (incomingDataLength : ℕ) : CyclicalBuffer :=
  let newCapacity := b.capacity * 2 + incomingDataLength
  { b with
    buffer := b.copyOldest (List.replicate newCapacity 0) b.count.toNat
    readOffset := 0 }

/-- The two calls of `replaceBytesInRange:withBytes:` that write the incoming data. -/
def writeAt (b : CyclicalBuffer) (writeOffset : ℕ) (data : NSData) : CyclicalBuffer :=
  let writeSlack := b.capacity - writeOffset
  let buffer := overwrite b.buffer writeOffset (List.take writeSlack data)
  let buffer :=
    if data.length > writeSlack then overwrite buffer 0 (List.drop writeSlack data) else buffer
  { b with buffer, count := b.count + data.length.toUInt32 }

def enqueueData (data : NSData) : Method Abort CyclicalBuffer Unit := do
  if data.length = 0 then
    return
  let b ← get
  -- the sum has 32 bits
  let writeOffset ← remainder (b.readOffset + b.count).toNat b.capacity
  let bufferSpaceAvailable := b.capacity - b.count.toNat
  let (b, writeOffset) :=
    if bufferSpaceAvailable < data.length then (b.grown data.length, b.count.toNat)
    else (b, writeOffset)
  if b.capacity - b.count.toNat < data.length then
    throw .assertionFailed
  set (b.writeAt writeOffset data)

def enqueuedLength (b : CyclicalBuffer) : ℕ := b.count.toNat

def discard (length : ℕ) : Method Abort CyclicalBuffer Unit := do
  Abort.of (owsRequire (length ≤ (← get).count.toNat))
  modify fun b => { b with count := b.count - length.toUInt32 }
  let b ← get
  -- the capacity is cut to 32 bits
  let readOffset ← remainder (b.readOffset.toNat + length) b.capacity.toUInt32.toNat
  modify fun b => { b with readOffset := readOffset.toUInt32 }

def peekDataWithLength (length : ℕ) : Method Abort CyclicalBuffer NSData := do
  let b ← get
  Abort.of (owsRequire (length ≤ b.count.toNat))
  if length = 0 then
    return []
  return b.copyOldest (List.replicate length 0) length

def dequeueDataWithLength (length : ℕ) : Method Abort CyclicalBuffer NSData := do
  let result ← peekDataWithLength length
  discard length
  return result

def dequeuePotentialyVolatileDataWithLength (length : ℕ) : Method Abort CyclicalBuffer NSData := do
  let b ← get
  if b.readSlack < length then
    dequeueDataWithLength length
  else
    let result ← Abort.of (b.buffer.subdataVolatileWithRange b.readOffset.toNat length)
    discard length
    return result

def peekVolatileHeadOfData : Method Abort CyclicalBuffer NSData := do
  let b ← get
  Abort.of (b.buffer.subdataVolatileWithRange b.readOffset.toNat (min b.count.toNat b.readSlack))

/-- The buffer as cells of a queue. -/
def ring (b : CyclicalBuffer) : RingBuffer UInt8 := ⟨b.buffer, b.readOffset.toNat, b.count.toNat⟩

/-- The enqueued bytes, the oldest first. -/
def contents (b : CyclicalBuffer) : NSData := b.ring.contents

structure WellFormed (b : CyclicalBuffer) : Prop where
  offset_lt : b.readOffset.toNat < b.capacity
  count_le : b.count.toNat ≤ b.capacity

/-- The remainder by the capacity that was cut to 32 bits is the one by the capacity. -/
def KeepsOffset (b : CyclicalBuffer) (length : ℕ) : Prop :=
  0 < b.capacity % 2 ^ 32 ∧
    (b.readOffset.toNat + length) % (b.capacity % 2 ^ 32) =
      (b.readOffset.toNat + length) % b.capacity

/-- No 32-bit sum of the enqueueing overflows, or it does not matter that it does. -/
def HasRoom (b : CyclicalBuffer) (data : NSData) : Prop :=
  data.length ≠ 0 → b.count.toNat + data.length < 2 ^ 32 ∧
    (b.capacity - b.count.toNat < data.length ∨
      (b.readOffset.toNat + b.count.toNat) % 2 ^ 32 % b.capacity =
        (b.readOffset.toNat + b.count.toNat) % b.capacity)

variable {b : CyclicalBuffer} {data : NSData} {n : ℕ}

theorem WellFormed.ring (h : b.WellFormed) : b.ring.WellFormed :=
  ⟨fun _ => h.offset_lt, h.count_le⟩

theorem length_contents (h : b.WellFormed) : b.contents.length = b.count.toNat :=
  RingBuffer.length_contents h.ring

theorem wellFormed_withCapacity (hn : 0 < n) : (withCapacity n).WellFormed := by
  constructor
  · rw [capacity, withCapacity, List.length_replicate]
    exact hn
  · exact Nat.zero_le _

theorem keepsOffset_of_capacity_lt (h : b.WellFormed) (hcapacity : b.capacity < 2 ^ 32) (n : ℕ) :
    b.KeepsOffset n := by
  have hpos := Nat.zero_lt_of_lt h.offset_lt
  rw [KeepsOffset, Nat.mod_eq_of_lt hcapacity]
  exact ⟨hpos, rfl⟩

theorem copyOldest_eq (h : b.WellFormed) (hn : n ≤ b.count.toNat) {old : NSData}
    (hold : old.length = n) (rest : NSData) :
    b.copyOldest (old ++ rest) n = List.take n b.contents ++ rest :=
  RingBuffer.copy_eq h.ring hn hold rest

theorem copyOldest_replicate (h : b.WellFormed) {size : ℕ} (hn : n ≤ b.count.toNat)
    (hsize : n ≤ size) :
    b.copyOldest (List.replicate size 0) n =
      List.take n b.contents ++ List.replicate (size - n) 0 := by
  have hsplit : (List.replicate size 0 : NSData) =
      List.replicate n 0 ++ List.replicate (size - n) 0 := by
    rw [List.replicate_append_replicate]
    congr
    omega
  rw [hsplit]
  exact copyOldest_eq h hn List.length_replicate _

/-- The buffer whose contents are `data`, from the beginning on. -/
def packed (data : NSData) (capacity : ℕ) : CyclicalBuffer :=
  ⟨data ++ List.replicate (capacity - data.length) 0, 0, data.length.toUInt32⟩

theorem capacity_packed (h : data.length ≤ n) : (packed data n).capacity = n := by
  rw [capacity, packed, List.length_append, List.length_replicate]
  omega

theorem count_packed (h : data.length < 2 ^ 32) : (packed data n).count.toNat = data.length := by
  rw [packed, Nat.toUInt32_eq, UInt32.toNat_ofNat']
  exact Nat.mod_eq_of_lt h

theorem wellFormed_packed (h : data.length < 2 ^ 32) (hdata : data.length ≤ n) (hn : 0 < n) :
    (packed data n).WellFormed := by
  constructor
  · rw [capacity_packed hdata]
    exact hn
  · rw [capacity_packed hdata, count_packed h]
    exact hdata

theorem contents_packed (h : data.length < 2 ^ 32) : (packed data n).contents = data := by
  rw [contents, ring, count_packed h]
  exact RingBuffer.contents_front data _

/-- Growing copies the contents to the beginning of a larger buffer. -/
theorem grown_eq (h : b.WellFormed) (n : ℕ) :
    b.grown n = packed b.contents (b.capacity * 2 + n) := by
  have hcount := h.count_le
  have hwhole : List.take b.count.toNat b.contents = b.contents := by
    rw [← length_contents h, List.take_length]
  rw [grown, copyOldest_replicate h (Nat.le_refl _) (by omega), hwhole, packed, length_contents h]
  rw [Nat.toUInt32_eq, UInt32.ofNat_toNat]

theorem writeAt_packed {incoming : NSData} (h : data.length + incoming.length ≤ n) :
    (packed data n).writeAt data.length incoming = packed (data ++ incoming) n := by
  have hcapacity : (packed data n).capacity = n := capacity_packed (by omega)
  have hfits : incoming.length ≤ n - data.length := by omega
  have hsplit : List.replicate (n - data.length) (0 : UInt8) =
      List.replicate incoming.length 0 ++ List.replicate (n - (data ++ incoming).length) 0 := by
    rw [List.replicate_append_replicate, List.length_append]
    congr
    omega
  rw [writeAt, hcapacity, List.take_of_length_le hfits, if_neg (Nat.not_lt.mpr hfits)]
  unfold packed
  rw [overwrite_append_length, hsplit, overwrite_append List.length_replicate, List.append_assoc,
    List.length_append, Nat.toUInt32_eq, Nat.toUInt32_eq, Nat.toUInt32_eq, UInt32.ofNat_add]

theorem ring_writeAt {writeOffset : ℕ} (hoffset : writeOffset = b.ring.place)
    (hcount : b.count.toNat + data.length < 2 ^ 32) :
    (b.writeAt writeOffset data).ring = b.ring.write data := by
  have hadd : (b.count + data.length.toUInt32).toNat = b.count.toNat + data.length := by
    rw [UInt32.toNat_add, Nat.toUInt32_eq, UInt32.toNat_ofNat', Nat.add_mod_mod]
    exact Nat.mod_eq_of_lt hcount
  unfold writeAt ring RingBuffer.write
  subst hoffset
  dsimp only
  rw [hadd]
  congr 1
  split
  · rfl
  · rw [List.drop_of_length_le (Nat.not_lt.mp ‹_›), overwrite_nil]
    rfl

theorem run_enqueueData_nil : (enqueueData []).run.run b = (.ok (), b) := rfl

theorem run_enqueueData (h : b.WellFormed) (hdata : data.length ≠ 0) :
    (enqueueData data).run.run b = (.ok (), if b.capacity - b.count.toNat < data.length then
      packed (b.contents ++ data) (b.capacity * 2 + data.length)
      else b.writeAt ((b.readOffset + b.count).toNat % b.capacity) data) := by
  have hpos : b.capacity ≠ 0 := Nat.ne_zero_of_lt h.offset_lt
  have hcount := h.count_le
  have hremainder : remainder (b.readOffset + b.count).toNat b.capacity =
      .ok ((b.readOffset + b.count).toNat % b.capacity) := if_neg hpos
  unfold enqueueData
  rw [if_neg hdata]
  simp only [Method.run_bind, Method.run_get, hremainder, Method.run_lift]
  by_cases hgrows : b.capacity - b.count.toNat < data.length
  · have hfits : b.contents.length + data.length ≤ b.capacity * 2 + data.length := by
      rw [length_contents h]
      omega
    have hasserted : ¬ (b.grown data.length).capacity - (b.grown data.length).count.toNat <
        data.length := by
      rw [grown_eq h, capacity_packed (by omega), ← grown_eq h]
      change ¬ b.capacity * 2 + data.length - b.count.toNat < data.length
      omega
    have hwritten : (b.grown data.length).writeAt b.count.toNat data =
        packed (b.contents ++ data) (b.capacity * 2 + data.length) := by
      rw [grown_eq h, ← length_contents h]
      exact writeAt_packed hfits
    rw [if_pos hgrows, if_pos hgrows]
    dsimp only
    rw [if_neg hasserted, hwritten]
    rfl
  · rw [if_neg hgrows, if_neg hgrows]
    dsimp only
    rw [if_neg hgrows]
    rfl

/-- Enqueueing appends to the contents. -/
theorem enqueueData_spec (h : b.WellFormed) (hroom : b.HasRoom data) :
    ∃ b', (enqueueData data).run.run b = (.ok (), b') ∧ b'.WellFormed ∧
      b'.contents = b.contents ++ data ∧
      b'.readOffset.toNat ≤ b.readOffset.toNat ∧
      (b'.capacity = b.capacity ∨ b'.capacity ≤ 3 * (b.count.toNat + data.length)) := by
  have hle := h.count_le
  by_cases hdata : data.length = 0
  · rw [List.eq_nil_of_length_eq_zero hdata]
    exact ⟨b, run_enqueueData_nil, h, (List.append_nil _).symm, Nat.le_refl _, .inl rfl⟩
  · obtain ⟨hcount, hoffset⟩ := hroom hdata
    by_cases hgrows : b.capacity - b.count.toNat < data.length
    · have hlength : (b.contents ++ data).length = b.count.toNat + data.length := by
        rw [List.length_append, length_contents h]
      refine ⟨_, by rw [run_enqueueData h hdata, if_pos hgrows], ?_, ?_, ?_, ?_⟩
      · exact wellFormed_packed (by omega) (by omega) (by omega)
      · exact contents_packed (by omega)
      · exact Nat.zero_le _
      · rw [capacity_packed (by omega)]
        omega
    · have hplace : (b.readOffset + b.count).toNat % b.capacity = b.ring.place := by
        rw [UInt32.toNat_add]
        exact hoffset.resolve_left hgrows
      have hring := ring_writeAt hplace hcount
      have hfits : b.ring.count + data.length ≤ b.ring.cells.length := by
        change b.count.toNat + data.length ≤ b.capacity
        omega
      have hwritten := RingBuffer.WellFormed.write h.ring hfits
      have hcapacity := RingBuffer.length_write h.ring hfits
      have hcontents := RingBuffer.contents_write h.ring hfits
      rw [← hring] at hwritten hcapacity hcontents
      refine ⟨_, by rw [run_enqueueData h hdata, if_neg hgrows], ?_, hcontents, Nat.le_refl _,
        .inl hcapacity⟩
      constructor
      · exact hwritten.offset_lt (by rw [hcapacity]; exact Nat.zero_lt_of_lt h.offset_lt)
      · exact hwritten.count_le

theorem capacity_writeAt {writeOffset : ℕ} (hoffset : writeOffset < b.capacity)
    (hfits : data.length ≤ b.capacity) : (b.writeAt writeOffset data).capacity = b.capacity := by
  have hfirst : (overwrite b.buffer writeOffset
      (List.take (b.capacity - writeOffset) data)).length = b.capacity := by
    apply length_overwrite
    rw [List.length_take]
    unfold capacity at *
    omega
  unfold writeAt
  rw [capacity]
  dsimp only
  split_ifs
  · rw [length_overwrite, hfirst]
    rw [hfirst, List.length_drop]
    omega
  · exact hfirst

/-- Wherever the bytes are written, they are counted. -/
theorem enqueueData_count (h : b.WellFormed) (hcount : b.count.toNat + data.length < 2 ^ 32) :
    ∃ b', (enqueueData data).run.run b = (.ok (), b') ∧ b'.WellFormed ∧
      b'.count.toNat = b.count.toNat + data.length := by
  have hle := h.count_le
  have hpos := Nat.zero_lt_of_lt h.offset_lt
  by_cases hdata : data.length = 0
  · rw [List.eq_nil_of_length_eq_zero hdata]
    exact ⟨b, run_enqueueData_nil, h, rfl⟩
  · by_cases hgrows : b.capacity - b.count.toNat < data.length
    · have hlength : (b.contents ++ data).length = b.count.toNat + data.length := by
        rw [List.length_append, length_contents h]
      refine ⟨_, by rw [run_enqueueData h hdata, if_pos hgrows], ?_, ?_⟩
      · exact wellFormed_packed (by omega) (by omega) (by omega)
      · rw [count_packed (by omega), hlength]
    · have hoffset := Nat.mod_lt (b.readOffset + b.count).toNat hpos
      have hcapacity := capacity_writeAt hoffset (show data.length ≤ b.capacity by omega)
      have hwritten : (b.count + data.length.toUInt32).toNat = b.count.toNat + data.length := by
        rw [UInt32.toNat_add, Nat.toUInt32_eq, UInt32.toNat_ofNat', Nat.add_mod_mod]
        exact Nat.mod_eq_of_lt hcount
      refine ⟨_, by rw [run_enqueueData h hdata, if_neg hgrows], ⟨?_, ?_⟩, hwritten⟩
      · rw [hcapacity]
        exact h.offset_lt
      · rw [hcapacity]
        exact hwritten.trans_le (by omega)

theorem run_discard (n : ℕ) (b : CyclicalBuffer) : (discard n).run.run b =
    if n ≤ b.count.toNat then
      match remainder (b.readOffset.toNat + n) b.capacity.toUInt32.toNat with
      | .ok readOffset => (.ok (), ⟨b.buffer, readOffset.toUInt32, b.count - n.toUInt32⟩)
      | .error e => (.error e, { b with count := b.count - n.toUInt32 })
    else (.error (.raised .badArgument), b) := by
  unfold discard owsRequire
  simp only [Method.run_bind, Method.run_get, Method.run_lift]
  split_ifs
  · simp only [Abort.of, Except.mapError, Method.run_modify, capacity]
    cases remainder (b.readOffset.toNat + n) b.buffer.length.toUInt32.toNat <;> rfl
  · rfl

theorem toNat_capacity (b : CyclicalBuffer) :
    b.capacity.toUInt32.toNat = b.capacity % 2 ^ 32 := by
  rw [Nat.toUInt32_eq, UInt32.toNat_ofNat']

theorem toNat_sub {count : UInt32} (hn : n ≤ count.toNat) :
    (count - n.toUInt32).toNat = count.toNat - n := by
  have hlength : n.toUInt32.toNat = n := by
    have hbound := count.toNat_lt
    rw [Nat.toUInt32_eq, UInt32.toNat_ofNat', Nat.mod_eq_of_lt (by omega)]
  rw [UInt32.toNat_sub_of_le, hlength]
  rw [UInt32.le_iff_toNat_le, hlength]
  exact hn

/-- Discarding advances the queue, where the remainder is that by the capacity. -/
theorem discard_spec (hkeeps : b.KeepsOffset n) (hn : n ≤ b.count.toNat) :
    ∃ b', (discard n).run.run b = (.ok (), b') ∧ b'.ring = b.ring.advance n := by
  obtain ⟨hpos, hoffset⟩ := hkeeps
  have hremainder : remainder (b.readOffset.toNat + n) b.capacity.toUInt32.toNat =
      .ok ((b.readOffset.toNat + n) % b.capacity) := by
    rw [toNat_capacity, remainder, if_neg (Nat.ne_of_gt hpos), hoffset]
  have hlt : (b.readOffset.toNat + n) % b.capacity < 2 ^ 32 := by
    rw [← hoffset]
    exact Nat.lt_trans (Nat.mod_lt _ hpos) (Nat.mod_lt _ (by decide))
  refine ⟨_, by rw [run_discard, if_pos hn, hremainder], ?_⟩
  unfold ring RingBuffer.advance
  dsimp only
  rw [toNat_sub hn, Nat.toUInt32_eq, UInt32.toNat_ofNat', Nat.mod_eq_of_lt hlt]
  rfl

theorem discard_count (h : b.WellFormed) (hpos : 0 < b.capacity % 2 ^ 32)
    (hn : n ≤ b.count.toNat) : ∃ b', (discard n).run.run b = (.ok (), b') ∧ b'.WellFormed ∧
      b'.count.toNat = b.count.toNat - n := by
  have hle := h.count_le
  have hremainder : remainder (b.readOffset.toNat + n) b.capacity.toUInt32.toNat =
      .ok ((b.readOffset.toNat + n) % (b.capacity % 2 ^ 32)) := by
    rw [toNat_capacity, remainder, if_neg (Nat.ne_of_gt hpos)]
  have hoffset := Nat.mod_lt (b.readOffset.toNat + n) hpos
  have hcapacity := Nat.mod_le b.capacity (2 ^ 32)
  have hcut := Nat.mod_le ((b.readOffset.toNat + n) % (b.capacity % 2 ^ 32)) (2 ^ 32)
  have hlength := toNat_sub hn
  refine ⟨_, by rw [run_discard, if_pos hn, hremainder], ⟨?_, ?_⟩, hlength⟩
  · dsimp only
    rw [Nat.toUInt32_eq, UInt32.toNat_ofNat']
    exact Nat.lt_of_le_of_lt hcut (Nat.lt_of_lt_of_le hoffset hcapacity)
  · dsimp only
    rw [hlength]
    exact Nat.le_trans (Nat.sub_le _ _) hle

theorem WellFormed.of_advance {b' : CyclicalBuffer} (h : b.WellFormed)
    (hring : b'.ring = b.ring.advance n) : b'.WellFormed := by
  have hadvanced := h.ring.advance n
  rw [← hring] at hadvanced
  have hcapacity : b'.capacity = b.capacity := congrArg (List.length ∘ RingBuffer.cells) hring
  constructor
  · apply hadvanced.offset_lt
    change 0 < b'.capacity
    rw [hcapacity]
    exact Nat.zero_lt_of_lt h.offset_lt
  · exact hadvanced.count_le

theorem run_peekDataWithLength (h : b.WellFormed) (n : ℕ) : (peekDataWithLength n).run.run b =
    (if n ≤ b.count.toNat then .ok (List.take n b.contents) else .error (.raised .badArgument),
      b) := by
  unfold peekDataWithLength owsRequire
  simp only [Method.run_bind, Method.run_get, Method.run_lift]
  by_cases hn : n ≤ b.count.toNat
  · rw [if_pos hn, if_pos hn]
    simp only [Abort.of, Except.mapError]
    by_cases hzero : n = 0
    · rw [if_pos hzero, hzero, List.take_zero]
      rfl
    · rw [if_neg hzero, copyOldest_replicate h hn (Nat.le_refl n), Nat.sub_self,
        List.replicate_zero, List.append_nil]
      rfl
  · rw [if_neg hn, if_neg hn]
    rfl

theorem run_subdataVolatileWithRange (h : b.WellFormed) (hn : n ≤ b.readSlack) :
    b.buffer.subdataVolatileWithRange b.readOffset.toNat n =
      .ok (stretch b.buffer b.readOffset.toNat n) := by
  have hoffset := h.offset_lt
  have hrange : b.readOffset.toNat + n ≤ b.buffer.length := by
    unfold readSlack capacity at *
    omega
  have hrequire : ∀ m, m ≤ b.readOffset.toNat + n →
      owsRequire (m ≤ b.buffer.length) = .ok () := by
    intro m hm
    exact owsRequire_eq_ok.mpr (Nat.le_trans hm hrange)
  unfold NSData.subdataVolatileWithRange NSData.subdataWithRange
  rw [hrequire _ (Nat.le_add_right _ n), hrequire _ (Nat.le_add_left n _),
    hrequire _ (Nat.le_refl _), if_pos hrange]
  rfl

/-- The stretch that ends where the contents or the cells do is a beginning of the contents. -/
theorem stretch_eq (h : b.WellFormed) (hcount : n ≤ b.count.toNat) (hslack : n ≤ b.readSlack) :
    stretch b.buffer b.readOffset.toNat n = List.take n b.contents := by
  have htake : List.take n b.contents = _ := RingBuffer.take_contents h.ring hcount
  have hmin : min (b.ring.cells.length - b.ring.offset) n = n := Nat.min_eq_right hslack
  have hnone : n - (b.ring.cells.length - b.ring.offset) = 0 := Nat.sub_eq_zero_of_le hslack
  rw [htake, hmin, hnone, stretch_zero, List.append_nil]
  rfl

/-- Dequeueing is peeking, and discarding what was returned. -/
theorem run_dequeueDataWithLength (h : b.WellFormed) (n : ℕ) :
    (dequeueDataWithLength n).run.run b = match (discard n).run.run b with
      | (.ok _, b') => (.ok (List.take n b.contents), b')
      | (.error e, b') => (.error e, b') := by
  unfold dequeueDataWithLength
  rw [Method.run_bind, run_peekDataWithLength h]
  by_cases hn : n ≤ b.count.toNat
  · rw [if_pos hn]
    dsimp only
    rw [Method.run_bind]
    rcases (discard n).run.run b with ⟨_ | _, b'⟩ <;> rfl
  · rw [if_neg hn, run_discard, if_neg hn]

/-- Whether or not the bytes are copied, they are those that are dequeued. -/
theorem run_dequeuePotentialyVolatileDataWithLength (h : b.WellFormed) (n : ℕ) :
    (dequeuePotentialyVolatileDataWithLength n).run.run b =
      (dequeueDataWithLength n).run.run b := by
  unfold dequeuePotentialyVolatileDataWithLength
  rw [Method.run_bind, Method.run_get]
  dsimp only
  by_cases hslack : b.readSlack < n
  · rw [if_pos hslack]
  · have hle : n ≤ b.readSlack := Nat.not_lt.mp hslack
    rw [if_neg hslack, Method.run_bind, Method.run_lift, run_subdataVolatileWithRange h hle,
      run_dequeueDataWithLength h]
    change (discard n >>= _).run.run b = _
    rw [Method.run_bind]
    by_cases hn : n ≤ b.count.toNat
    · rw [stretch_eq h hn hle]
      rcases (discard n).run.run b with ⟨_ | _, b'⟩ <;> rfl
    · rw [run_discard, if_neg hn]

theorem run_peekVolatileHeadOfData (h : b.WellFormed) : (peekVolatileHeadOfData).run.run b =
    (.ok (List.take (min b.count.toNat b.readSlack) b.contents), b) := by
  unfold peekVolatileHeadOfData
  simp only [Method.run_bind, Method.run_get, Method.run_lift]
  rw [run_subdataVolatileWithRange h (Nat.min_le_right _ _),
    stretch_eq h (Nat.min_le_left _ _) (Nat.min_le_right _ _)]
  rfl

end CyclicalBuffer
end SignalIOS
