import SignalIOS.Util.CyclicalBuffer

/-! Cyclic buffers against queues of bytes. -/
namespace SignalIOS.CyclicalBuffer
open SignalIOS.Lib

inductive Operation
  | enqueueData (data : NSData)
  | peekDataWithLength (length : ℕ)
  | dequeueDataWithLength (length : ℕ)
  | dequeuePotentialyVolatileDataWithLength (length : ℕ)
  | peekVolatileHeadOfData
  | discard (length : ℕ)

namespace Operation

/-- Where the method returns nothing, the result is the empty data. -/
def perform : Operation → Method Abort CyclicalBuffer NSData
  | enqueueData data => do CyclicalBuffer.enqueueData data; return []
  | peekDataWithLength length => CyclicalBuffer.peekDataWithLength length
  | dequeueDataWithLength length => CyclicalBuffer.dequeueDataWithLength length
  | dequeuePotentialyVolatileDataWithLength length =>
    CyclicalBuffer.dequeuePotentialyVolatileDataWithLength length
  | peekVolatileHeadOfData => CyclicalBuffer.peekVolatileHeadOfData
  | discard length => do CyclicalBuffer.discard length; return []

def result (op : Operation) (b : CyclicalBuffer) : Except Abort NSData := (op.perform.run.run b).1

def after (op : Operation) (b : CyclicalBuffer) : CyclicalBuffer := (op.perform.run.run b).2

def incoming : Operation → NSData
  | enqueueData data => data
  | _ => []

/-- How many bytes the operation asks for. -/
def asked : Operation → ℕ
  | peekDataWithLength length => length
  | dequeueDataWithLength length => length
  | dequeuePotentialyVolatileDataWithLength length => length
  | discard length => length
  | _ => 0

/-- Whether the bytes asked for leave the queue. -/
def removes : Operation → Bool
  | dequeueDataWithLength _ => true
  | dequeuePotentialyVolatileDataWithLength _ => true
  | discard _ => true
  | _ => false

/-- The queue that the operation leaves. -/
def next (op : Operation) (queue : NSData) : NSData :=
  (if op.removes ∧ op.asked ≤ queue.length then queue.drop op.asked else queue) ++ op.incoming

/-- What the queue answers where `length` bytes of it are asked for. -/
def answer (queue : NSData) (length : ℕ) (bytes : NSData) : Except Abort NSData :=
  if length ≤ queue.length then .ok bytes else .error (.raised .badArgument)

/-- The results that the operation may have, invoked on the queue. -/
def Returns (queue : NSData) (result : Except Abort NSData) : Operation → Prop
  | enqueueData _ => result = .ok []
  | peekDataWithLength length => result = answer queue length (List.take length queue)
  | dequeueDataWithLength length => result = answer queue length (List.take length queue)
  | dequeuePotentialyVolatileDataWithLength length =>
    result = answer queue length (List.take length queue)
  | peekVolatileHeadOfData => ∃ head, result = .ok head ∧ head <+: queue ∧ (queue ≠ [] → head ≠ [])
  | discard length => result = answer queue length []

end Operation

/-- Performed one after the other, the operations return what they return on the queue, and the
contents are the queue. -/
def Refines : List Operation → NSData → CyclicalBuffer → Prop
  | [], _, _ => True
  | op :: ops, queue, b => op.Returns queue (op.result b) ∧
    (op.after b).contents = op.next queue ∧ Refines ops (op.next queue) (op.after b)

/-- Every operation that removes bytes finds a capacity by which 32 bits compute its remainder. -/
def KeepsOffsets : List Operation → CyclicalBuffer → Prop
  | [], _ => True
  | op :: ops, b => (op.removes → op.asked ≤ b.count.toNat → b.KeepsOffset op.asked) ∧
    KeepsOffsets ops (op.after b)

def totalLength : List Operation → ℕ
  | [] => 0
  | op :: ops => op.incoming.length + totalLength ops

variable {b b' : CyclicalBuffer} {op : Operation} {ops : List Operation} {n : ℕ}

/-- What every operation preserves. The offset and the count together do not exceed the bytes ever
enqueued. -/
structure Follows (b : CyclicalBuffer) (queue incoming : NSData) (b' : CyclicalBuffer) : Prop where
  wellFormed : b'.WellFormed
  contents : b'.contents = queue
  sum_le : b'.readOffset.toNat + b'.count.toNat ≤
    b.readOffset.toNat + b.count.toNat + incoming.length
  capacity : b'.capacity = b.capacity ∨ b'.capacity ≤ 3 * (b.count.toNat + incoming.length)

theorem Follows.refl (h : b.WellFormed) : Follows b b.contents [] b :=
  ⟨h, rfl, Nat.le_refl _, .inl rfl⟩

/-- Bytes are enqueued without an overflow. -/
theorem enqueueData_follows {data : NSData} (h : b.WellFormed)
    (hsum : b.readOffset.toNat + b.count.toNat + data.length < 2 ^ 32) :
    ∃ b', (enqueueData data).run.run b = (.ok (), b') ∧
      Follows b (b.contents ++ data) data b' := by
  have hmod : (b.readOffset.toNat + b.count.toNat) % 2 ^ 32 = b.readOffset.toNat + b.count.toNat :=
    Nat.mod_eq_of_lt (by omega)
  have hroom : b.HasRoom data := by
    intro _
    constructor
    · omega
    · rw [hmod]
      exact .inr rfl
  obtain ⟨b', hrun, hb', hcontents, hoffset, hcapacity⟩ := enqueueData_spec h hroom
  have hcount : b'.count.toNat = b.count.toNat + data.length := by
    rw [← length_contents hb', hcontents, List.length_append, length_contents h]
  exact ⟨b', hrun, hb', hcontents, by omega, hcapacity⟩

/-- Bytes are discarded if there are enough of them. -/
theorem discard_follows (h : b.WellFormed) (hkeeps : n ≤ b.count.toNat → b.KeepsOffset n) :
    ∃ b', (discard n).run.run b =
        (if n ≤ b.contents.length then .ok () else .error (.raised .badArgument), b') ∧
      Follows b (if n ≤ b.contents.length then b.contents.drop n else b.contents) [] b' := by
  rw [length_contents h]
  by_cases hn : n ≤ b.count.toNat
  · obtain ⟨b', hrun, hring⟩ := discard_spec (hkeeps hn) hn
    have hb' := h.of_advance hring
    have hcontents : b'.contents = b.contents.drop n := by
      rw [contents, hring]
      exact RingBuffer.contents_advance h.ring hn
    have hcount : b'.count.toNat = b.count.toNat - n := congrArg RingBuffer.count hring
    have hoffset : b'.readOffset.toNat = (b.readOffset.toNat + n) % b.capacity :=
      congrArg RingBuffer.offset hring
    have hle := Nat.mod_le (b.readOffset.toNat + n) b.capacity
    rw [if_pos hn, if_pos hn]
    refine ⟨b', hrun, hb', hcontents, by omega, .inl ?_⟩
    exact congrArg (List.length ∘ RingBuffer.cells) hring
  · rw [if_neg hn, if_neg hn]
    exact ⟨b, by rw [run_discard, if_neg hn], .refl h⟩

/-- What is dequeued are the bytes that are discarded. -/
theorem dequeueDataWithLength_follows (h : b.WellFormed)
    (hkeeps : n ≤ b.count.toNat → b.KeepsOffset n) :
    ∃ b', (dequeueDataWithLength n).run.run b =
        (Operation.answer b.contents n (List.take n b.contents), b') ∧
      Follows b (if n ≤ b.contents.length then b.contents.drop n else b.contents) [] b' := by
  obtain ⟨b', hrun, hfollows⟩ := discard_follows h hkeeps
  refine ⟨b', ?_, hfollows⟩
  rw [run_dequeueDataWithLength h, hrun, Operation.answer]
  split_ifs <;> rfl

theorem readSlack_pos (h : b.WellFormed) : 0 < b.readSlack := Nat.sub_pos_of_lt h.offset_lt

/-- There is a head wherever there is anything. -/
theorem peekVolatileHeadOfData_ne_nil (h : b.WellFormed) (hcontents : b.contents ≠ []) :
    List.take (min b.count.toNat b.readSlack) b.contents ≠ [] := by
  intro hhead
  have hlength := congrArg List.length hhead
  have hpos := List.length_pos_iff.mpr hcontents
  have hslack := readSlack_pos h
  rw [List.length_take, length_contents h, List.length_nil] at hlength
  rw [length_contents h] at hpos
  omega

namespace Operation

theorem next_of_removes (hremoves : op.removes = true) (hincoming : op.incoming = [])
    (queue : NSData) : op.next queue =
      if op.asked ≤ queue.length then queue.drop op.asked else queue := by
  unfold next
  simp only [hremoves, true_and, hincoming, List.append_nil]

theorem next_of_peeks (hpeeks : op.removes = false) (hincoming : op.incoming = [])
    (queue : NSData) : op.next queue = queue := by
  unfold next
  simp only [hpeeks, Bool.false_eq_true, false_and, if_false, hincoming, List.append_nil]

/-- An operation follows the queue, where no sum and no remainder is cut short. -/
theorem follows (h : b.WellFormed)
    (hsum : b.readOffset.toNat + b.count.toNat + op.incoming.length < 2 ^ 32)
    (hkeeps : op.removes → op.asked ≤ b.count.toNat → b.KeepsOffset op.asked) :
    op.Returns b.contents (op.result b) ∧
      Follows b (op.next b.contents) op.incoming (op.after b) := by
  unfold result after
  cases op with
  | enqueueData data =>
    have hfits : b.readOffset.toNat + b.count.toNat + data.length < 2 ^ 32 := hsum
    obtain ⟨b', hrun, hfollows⟩ := enqueueData_follows h hfits
    have hperform : (enqueueData data).perform.run.run b = (.ok [], b') := by
      rw [perform, Method.run_bind, hrun]
      rfl
    rw [hperform]
    exact ⟨rfl, hfollows⟩
  | peekDataWithLength n =>
    rw [perform, run_peekDataWithLength h, ← length_contents h, next_of_peeks rfl rfl]
    exact ⟨rfl, .refl h⟩
  | dequeueDataWithLength n =>
    have hkept : n ≤ b.count.toNat → b.KeepsOffset n := hkeeps rfl
    obtain ⟨b', hrun, hfollows⟩ := dequeueDataWithLength_follows h hkept
    rw [perform, hrun, next_of_removes rfl rfl]
    exact ⟨rfl, hfollows⟩
  | dequeuePotentialyVolatileDataWithLength n =>
    have hkept : n ≤ b.count.toNat → b.KeepsOffset n := hkeeps rfl
    obtain ⟨b', hrun, hfollows⟩ := dequeueDataWithLength_follows h hkept
    rw [perform, run_dequeuePotentialyVolatileDataWithLength h, hrun, next_of_removes rfl rfl]
    exact ⟨rfl, hfollows⟩
  | peekVolatileHeadOfData =>
    rw [perform, run_peekVolatileHeadOfData h, next_of_peeks rfl rfl]
    constructor
    · exact ⟨_, rfl, List.take_prefix _ _, peekVolatileHeadOfData_ne_nil h⟩
    · exact .refl h
  | discard n =>
    have hkept : n ≤ b.count.toNat → b.KeepsOffset n := hkeeps rfl
    obtain ⟨b', hrun, hfollows⟩ := discard_follows h hkept
    have hperform : (discard n).perform.run.run b = (answer b.contents n [], b') := by
      rw [perform, Method.run_bind, hrun, answer]
      split_ifs <;> rfl
    rw [hperform, next_of_removes rfl rfl]
    exact ⟨rfl, hfollows⟩

end Operation

theorem refines_of_wellFormed (h : b.WellFormed)
    (hsum : b.readOffset.toNat + b.count.toNat + totalLength ops < 2 ^ 32)
    (hkeeps : KeepsOffsets ops b) : Refines ops b.contents b := by
  induction ops generalizing b with
  | nil => trivial
  | cons op ops ih =>
    rw [totalLength] at hsum
    obtain ⟨hreturns, hfollows⟩ := Operation.follows h (by omega) hkeeps.1
    have hle := hfollows.sum_le
    refine ⟨hreturns, hfollows.contents, ?_⟩
    rw [← hfollows.contents]
    exact ih hfollows.wellFormed (by omega) hkeeps.2

/-- A cyclic buffer of any positive capacity is a queue of bytes, as long as 32 bits compute its
remainders. -/
theorem refines_of_keepsOffsets {capacity : ℕ} (hcapacity : capacity ≠ 0)
    (htotal : totalLength ops < 2 ^ 31) (hkeeps : KeepsOffsets ops (withCapacity capacity)) :
    Refines ops [] (withCapacity capacity) := by
  have hzero : (withCapacity capacity).readOffset.toNat + (withCapacity capacity).count.toNat = 0 :=
    rfl
  have hsum : 0 + totalLength ops < 2 ^ 32 := by omega
  have h := wellFormed_withCapacity (Nat.pos_of_ne_zero hcapacity)
  exact refines_of_wellFormed h (hzero ▸ hsum) hkeeps

theorem keepsOffsets_of_wellFormed (h : b.WellFormed) (hcapacity : b.capacity < 2 ^ 32)
    (hsum : 3 * (b.readOffset.toNat + b.count.toNat + totalLength ops) < 2 ^ 32) :
    KeepsOffsets ops b := by
  induction ops generalizing b with
  | nil => trivial
  | cons op ops ih =>
    have hkeeps := keepsOffset_of_capacity_lt h hcapacity op.asked
    rw [totalLength] at hsum
    obtain ⟨-, hfollows⟩ := Operation.follows h (by omega) fun _ _ => hkeeps
    have hle := hfollows.sum_le
    have hgrown := hfollows.capacity
    exact ⟨fun _ _ => hkeeps, ih hfollows.wellFormed (by omega) (by omega)⟩

/-- Fewer than a third of `2 ^ 32` bytes never make the capacity so large that 32 bits cut it. -/
theorem refines_of_totalLength_lt {capacity : ℕ} (hpos : capacity ≠ 0)
    (hcapacity : capacity < 2 ^ 32) (htotal : 3 * totalLength ops < 2 ^ 32) :
    Refines ops [] (withCapacity capacity) := by
  have h := wellFormed_withCapacity (Nat.pos_of_ne_zero hpos)
  have hlength : (withCapacity capacity).capacity = capacity := List.length_replicate
  have hsum : 3 * (0 + totalLength ops) < 2 ^ 32 := by omega
  have hkeeps : KeepsOffsets ops (withCapacity capacity) :=
    keepsOffsets_of_wellFormed h (hlength.symm ▸ hcapacity) hsum
  exact refines_of_keepsOffsets hpos (by omega) hkeeps

/-- Bytes that wrap around the end of a buffer of capacity 2, and then make it grow. -/
theorem refines_small :
    Refines [.enqueueData [1, 2], .discard 1, .enqueueData [3], .dequeueDataWithLength 1,
      .enqueueData [4, 5, 6], .peekVolatileHeadOfData] [] (withCapacity 2) :=
  refines_of_keepsOffsets (by decide) (by decide)
    (keepsOffsets_of_wellFormed (wellFormed_withCapacity (by decide)) (by decide) (by decide))

theorem Operation.after_enqueueData (data : NSData) (b : CyclicalBuffer) :
    (enqueueData data).after b = ((CyclicalBuffer.enqueueData data).run.run b).2 := by
  unfold after perform
  rw [Method.run_bind]
  rcases (CyclicalBuffer.enqueueData data).run.run b with ⟨_ | _, b'⟩ <;> rfl

theorem Operation.after_discard (n : ℕ) (b : CyclicalBuffer) :
    (discard n).after b = ((CyclicalBuffer.discard n).run.run b).2 := by
  unfold after perform
  rw [Method.run_bind]
  rcases (CyclicalBuffer.discard n).run.run b with ⟨_ | _, b'⟩ <;> rfl

/-- Enqueueing what does not fit behind contents that begin at the beginning. -/
theorem after_enqueueData_packed {data incoming : NSData} (hdata : data.length ≤ n)
    (hcount : data.length < 2 ^ 32) (hpos : 0 < n) (hgrows : n < data.length + incoming.length) :
    (Operation.enqueueData incoming).after (packed data n) =
      packed (data ++ incoming) (n * 2 + incoming.length) := by
  have h := wellFormed_packed hcount hdata hpos
  have hfull : (packed data n).capacity - (packed data n).count.toNat < incoming.length := by
    rw [capacity_packed hdata, count_packed hcount]
    omega
  unfold Operation.after Operation.perform
  rw [Method.run_bind, run_enqueueData h (by omega), if_pos hfull, contents_packed hcount,
    capacity_packed hdata]
  rfl

/-- A capacity that exceeds `2 ^ 32` by 2, after three enqueueings. -/
def overgrown (first second third : NSData) : List Operation :=
  [.enqueueData (1 :: 0 :: 0 :: first), .enqueueData second, .enqueueData third, .discard 2,
    .peekDataWithLength 1]

/-- Three enqueueings make the capacity exceed `2 ^ 32` by 2. -/
theorem after_overgrown {first second third : NSData} (hfirst : first.length = 858993136)
    (hsecond : second.length = 201) (hthird : third.length = 858993540) :
    (Operation.enqueueData third).after ((Operation.enqueueData second).after
        ((Operation.enqueueData (1 :: 0 :: 0 :: first)).after init)) =
      packed (1 :: 0 :: 0 :: (first ++ second ++ third)) (2 ^ 32 + 2) := by
  have hone : (1 :: 0 :: 0 :: first).length = 858993139 := by
    rw [List.length_cons, List.length_cons, List.length_cons, hfirst]
  have htwo : (1 :: 0 :: 0 :: first ++ second).length = 858993340 := by
    rw [List.length_append, hone, hsecond]
  have hinit : init = packed [] 100 := rfl
  rw [hinit, after_enqueueData_packed (by decide) (by decide) (by decide) (by rw [hone]; decide),
    hone, List.nil_append, after_enqueueData_packed (by omega) (by omega) (by omega) (by omega),
    hsecond, after_enqueueData_packed (by omega) (by omega) (by omega) (by omega), hthird]
  rfl

/-- Discarding two bytes there leads back to the first of them. -/
theorem run_discard_overgrown {data : NSData} (hdata : data.length = 1717986880) :
    (discard 2).run.run (packed data (2 ^ 32 + 2)) =
      (.ok (), ⟨(packed data (2 ^ 32 + 2)).buffer, 0, (packed data (2 ^ 32 + 2)).count - 2⟩) := by
  have hcount : (packed data (2 ^ 32 + 2)).count.toNat = 1717986880 := by
    rw [count_packed (by omega), hdata]
  have hremainder : remainder ((packed data (2 ^ 32 + 2)).readOffset.toNat + 2)
      (packed data (2 ^ 32 + 2)).capacity.toUInt32.toNat = .ok 0 := by
    have hdivisor : (2 ^ 32 + 2).toUInt32.toNat = 2 := by decide
    have hoffset : (packed data (2 ^ 32 + 2)).readOffset.toNat = 0 := rfl
    rw [capacity_packed (by omega), hdivisor, hoffset, remainder, if_neg (by decide)]
  rw [run_discard, hcount, if_pos (by decide), hremainder]
  rfl

theorem count_overgrown {data : NSData} (hdata : data.length = 1717986880) :
    ((packed data (2 ^ 32 + 2)).count - 2).toNat = 1717986878 := by
  have hcount : (packed data (2 ^ 32 + 2)).count.toNat = 1717986880 := by
    rw [count_packed (by omega), hdata]
  rw [UInt32.toNat_sub_of_le, hcount]
  · rfl
  · rw [UInt32.le_iff_toNat_le, hcount]
    decide

/-- The first byte is in front again, though it was discarded. -/
theorem head_overgrown {data : NSData} (hdata : (1 :: data).length = 1717986880) :
    List.take 1 (contents ⟨(packed (1 :: data) (2 ^ 32 + 2)).buffer, 0,
      (packed (1 :: data) (2 ^ 32 + 2)).count - 2⟩) = [1] := by
  rw [contents, ring, count_overgrown hdata, RingBuffer.contents]
  dsimp only
  rw [UInt32.toNat_zero, List.rotate_zero, List.take_take, Nat.min_eq_left (by decide)]
  rfl

theorem result_peek_overgrown {data : NSData} (hdata : (1 :: data).length = 1717986880) :
    (Operation.peekDataWithLength 1).result ⟨(packed (1 :: data) (2 ^ 32 + 2)).buffer, 0,
      (packed (1 :: data) (2 ^ 32 + 2)).count - 2⟩ = .ok [1] := by
  have hcount := count_overgrown hdata
  have hcapacity := capacity_packed (show (1 :: data).length ≤ 2 ^ 32 + 2 by omega)
  have h : WellFormed ⟨(packed (1 :: data) (2 ^ 32 + 2)).buffer, 0,
      (packed (1 :: data) (2 ^ 32 + 2)).count - 2⟩ := by
    constructor
    · change 0 < (packed (1 :: data) (2 ^ 32 + 2)).capacity
      omega
    · change ((packed (1 :: data) (2 ^ 32 + 2)).count - 2).toNat ≤
        (packed (1 :: data) (2 ^ 32 + 2)).capacity
      omega
  unfold Operation.result Operation.perform
  rw [run_peekDataWithLength h, hcount, if_pos (by decide), head_overgrown hdata]

/-- The queue has the third byte in front by then. -/
theorem not_refines_overgrown {first second third : NSData} (hfirst : first.length = 858993136)
    (hsecond : second.length = 201) (hthird : third.length = 858993540) :
    ¬ Refines (overgrown first second third) [] init := by
  rintro ⟨-, -, -, -, -, -, -, -, hpeek, -, -⟩
  let data : NSData := 1 :: 0 :: 0 :: (first ++ second ++ third)
  have hdata : data.length = 1717986880 := by
    simp only [data, List.length_cons, List.length_append, hfirst, hsecond, hthird]
  have hqueue : (Operation.discard 2).next data = 0 :: (first ++ second ++ third) := by
    rw [Operation.next_of_removes rfl rfl, if_pos]
    · rfl
    · rw [hdata]
      decide
  rw [after_overgrown hfirst hsecond hthird, Operation.after_discard, run_discard_overgrown hdata]
    at hpeek
  have hreturned : Operation.answer ((Operation.discard 2).next data) 1
      (List.take 1 ((Operation.discard 2).next data)) = .ok [1] :=
    Eq.trans hpeek.symm (result_peek_overgrown hdata)
  have hone : 1 ≤ (0 :: (first ++ second ++ third)).length := Nat.succ_pos _
  rw [hqueue, Operation.answer, if_pos hone] at hreturned
  cases hreturned

theorem totalLength_overgrown {first second third : NSData} (hfirst : first.length = 858993136)
    (hsecond : second.length = 201) (hthird : third.length = 858993540) :
    totalLength (overgrown first second third) < 2 ^ 31 := by
  unfold overgrown
  simp only [totalLength, Operation.incoming, List.length_cons, List.length_nil, hfirst, hsecond,
    hthird]
  decide

/-- Fewer than `2 ^ 31` bytes do not suffice to keep the capacity below `2 ^ 32`. -/
theorem overgrown_loses_order :
    ∃ ops, totalLength ops < 2 ^ 31 ∧ ¬ Refines ops [] init :=
  ⟨overgrown (List.replicate 858993136 0) (List.replicate 201 0) (List.replicate 858993540 0),
    totalLength_overgrown List.length_replicate List.length_replicate List.length_replicate,
    not_refines_overgrown List.length_replicate List.length_replicate List.length_replicate⟩

end SignalIOS.CyclicalBuffer
