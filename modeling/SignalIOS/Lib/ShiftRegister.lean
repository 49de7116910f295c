import Mathlib.Logic.Function.Iterate

/-! Registers that shift to the right and feed a polynomial back, and how they take several bits at
once. -/
namespace SignalIOS.Lib.ShiftRegister

variable {w k : ℕ} {poly x y : BitVec w} {bit : Bool}

/-- One bit goes in at the low end. What falls out there decides about the feedback. -/
def feed (poly x : BitVec w) (bit : Bool) : BitVec w :=
  if (x.getLsbD 0 ^^ bit) = true then (x >>> 1) ^^^ poly else x >>> 1

/-- The register moves on without a bit. -/
def shift (poly x : BitVec w) : BitVec w := feed poly x false

theorem shift_eq (poly x : BitVec w) :
    shift poly x = (x >>> 1) ^^^ (if x.getLsbD 0 = true then poly else 0#w) := by
  unfold shift feed
  rw [Bool.xor_false]
  split
  · rfl
  · rw [BitVec.xor_zero]

theorem shift_xor (poly x y : BitVec w) :
    shift poly (x ^^^ y) = shift poly x ^^^ shift poly y := by
  have hfeedback : (if (x.getLsbD 0 ^^ y.getLsbD 0) = true then poly else 0#w) =
      (if x.getLsbD 0 = true then poly else 0#w) ^^^ (if y.getLsbD 0 = true then poly else 0#w) := by
    cases x.getLsbD 0 <;> cases y.getLsbD 0 <;> simp
  rw [shift_eq, shift_eq, shift_eq, BitVec.ushiftRight_xor_distrib, BitVec.getLsbD_xor, hfeedback]
  ac_rfl

theorem shift_iterate_xor (poly x y : BitVec w) (n : ℕ) :
    (shift poly)^[n] (x ^^^ y) = (shift poly)^[n] x ^^^ (shift poly)^[n] y := by
  induction n with
  | zero => rfl
  | succ n ih =>
    rw [Function.iterate_succ_apply', Function.iterate_succ_apply', Function.iterate_succ_apply',
      ih, shift_xor]

/-- As long as zeros fall out, nothing is fed back. -/
theorem shift_iterate_of_low {n : ℕ} (h : ∀ i < n, x.getLsbD i = false) :
    (shift poly)^[n] x = x >>> n := by
  induction n with
  | zero => exact (BitVec.ushiftRight_zero x).symm
  | succ n ih =>
    have hout : (x >>> n).getLsbD 0 = false := by
      rw [BitVec.getLsbD_ushiftRight]
      exact h n (Nat.lt_succ_self n)
    have hbefore := ih fun i hi => h i (Nat.lt_succ_of_lt hi)
    rw [Function.iterate_succ_apply', hbefore, shift_eq, hout, BitVec.shiftRight_add]
    exact BitVec.xor_zero

/-- The low bits of a register, with zeros above them. -/
def low (k : ℕ) (x : BitVec w) : BitVec w := (x.setWidth k).setWidth w

theorem getLsbD_low (k : ℕ) (x : BitVec w) (i : ℕ) :
    (low k x).getLsbD i = (decide (i < k) && x.getLsbD i) := by
  unfold low
  rw [BitVec.getLsbD_setWidth, BitVec.getLsbD_setWidth]
  by_cases hi : i < w
  · rw [decide_eq_true hi, Bool.true_and]
  · rw [BitVec.getLsbD_of_ge x i (Nat.not_lt.mp hi), Bool.and_false, Bool.and_false]

/-- Several steps depend on the low bits by a table. The others move down. -/
theorem shift_iterate_eq_table (poly x : BitVec w) (k : ℕ) :
    (shift poly)^[k] x = (x >>> k) ^^^ (shift poly)^[k] (low k x) := by
  have hsplit : x = (x ^^^ low k x) ^^^ low k x := by
    rw [BitVec.xor_assoc, BitVec.xor_self, BitVec.xor_zero]
  have hzero : ∀ i < k, (x ^^^ low k x).getLsbD i = false := by
    intro i hi
    rw [BitVec.getLsbD_xor, getLsbD_low, decide_eq_true hi, Bool.true_and, Bool.xor_self]
  have hshift : (x ^^^ low k x) >>> k = x >>> k := by
    apply BitVec.eq_of_getLsbD_eq
    intro i _
    rw [BitVec.getLsbD_ushiftRight, BitVec.getLsbD_ushiftRight, BitVec.getLsbD_xor, getLsbD_low,
      decide_eq_false (by omega), Bool.false_and, Bool.xor_false]
  calc (shift poly)^[k] x
      = (shift poly)^[k] ((x ^^^ low k x) ^^^ low k x) := by rw [← hsplit]
    _ = (x >>> k) ^^^ (shift poly)^[k] (low k x) := by
      rw [shift_iterate_xor, shift_iterate_of_low hzero, hshift]

/-- The bits at the low end of a register, the first one lowest. -/
def ofBits (w : ℕ) : List Bool → BitVec w
  | [] => 0#w
  | bit :: bits => (ofBits w bits <<< 1) ^^^ (BitVec.ofBool bit).setWidth w

theorem getLsbD_ofBits (bits : List Bool) (i : ℕ) :
    (ofBits w bits).getLsbD i = (decide (i < w) && bits.getD i false) := by
  induction bits generalizing i with
  | nil => simp [ofBits]
  | cons bit bits ih =>
    rw [ofBits, BitVec.getLsbD_xor, BitVec.getLsbD_shiftLeft, BitVec.getLsbD_setWidth,
      BitVec.getLsbD_ofBool]
    cases i with
    | zero => simp
    | succ i =>
      rw [Nat.add_sub_cancel, ih, List.getD_cons_succ]
      by_cases hi : i + 1 < w
      · have hbefore : i < w := by omega
        simp [hi, hbefore]
      · simp [hi]

/-- A bit that goes in is a bit that was already there. -/
theorem feed_eq_shift (h : 0 < w) (poly x : BitVec w) (bit : Bool) :
    feed poly x bit = shift poly (x ^^^ (BitVec.ofBool bit).setWidth w) := by
  have hout : (x ^^^ (BitVec.ofBool bit).setWidth w).getLsbD 0 = (x.getLsbD 0 ^^ bit) := by
    rw [BitVec.getLsbD_xor, BitVec.getLsbD_setWidth, BitVec.getLsbD_ofBool, decide_eq_true h]
    simp
  have hrest : (x ^^^ (BitVec.ofBool bit).setWidth w) >>> 1 = x >>> 1 := by
    apply BitVec.eq_of_getLsbD_eq
    intro i _
    have hhigh : ¬ 1 + i = 0 := by omega
    rw [BitVec.getLsbD_ushiftRight, BitVec.getLsbD_ushiftRight, BitVec.getLsbD_xor,
      BitVec.getLsbD_setWidth, BitVec.getLsbD_ofBool, decide_eq_false hhigh, Bool.false_and,
      Bool.and_false, Bool.xor_false]
  rw [shift, feed, feed, hout, hrest, Bool.xor_false]

theorem shift_ofBits {bits : List Bool} (h : bits.length < w) (poly : BitVec w) :
    shift poly (ofBits w bits <<< 1) = ofBits w bits := by
  have hout : (ofBits w bits <<< 1).getLsbD 0 = false := by
    rw [BitVec.getLsbD_shiftLeft]
    simp
  have hback : (ofBits w bits <<< 1) >>> 1 = ofBits w bits := by
    apply BitVec.eq_of_getLsbD_eq
    intro i hi
    have hhigh : ¬ 1 + i < 1 := by omega
    rw [BitVec.getLsbD_ushiftRight, BitVec.getLsbD_shiftLeft, decide_eq_false hhigh,
      Nat.add_sub_cancel_left, getLsbD_ofBits, decide_eq_true hi]
    by_cases hlast : 1 + i < w
    · simp [hlast]
    · have hnone : bits[i]? = none := List.getElem?_eq_none (by omega)
      simp [hnone]
  rw [shift_eq, hout, hback]
  exact BitVec.xor_zero

/-- What goes in bit by bit can go in at once, before the steps. -/
theorem foldl_feed {bits : List Bool} (h : bits.length ≤ w) (poly x : BitVec w) :
    bits.foldl (feed poly) x = (shift poly)^[bits.length] (x ^^^ ofBits w bits) := by
  induction bits generalizing x with
  | nil => exact (BitVec.xor_zero).symm
  | cons bit bits ih =>
    have hlength : bits.length < w := h
    have hstep : feed poly x bit ^^^ ofBits w bits = shift poly (x ^^^ ofBits w (bit :: bits)) := by
      calc feed poly x bit ^^^ ofBits w bits
          = shift poly (x ^^^ (BitVec.ofBool bit).setWidth w) ^^^
              shift poly (ofBits w bits <<< 1) := by
            rw [feed_eq_shift (Nat.zero_lt_of_lt hlength), shift_ofBits hlength]
        _ = shift poly (x ^^^ ofBits w (bit :: bits)) := by
            rw [← shift_xor, ofBits]
            ac_rfl
    rw [List.foldl_cons, ih (Nat.le_of_lt hlength), hstep, List.length_cons,
      Function.iterate_succ_apply]

end SignalIOS.Lib.ShiftRegister
