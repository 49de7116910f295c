import Mathlib.Data.Int.Notation
import Mathlib.Data.Nat.Notation
import Mathlib.Tactic.SplitIfs

/-! The signs of binary64 numbers and of their products, on the bits that a `Float` is packed
into. A comparison with zero depends on nothing else. -/
namespace SignalIOS.Lib.Binary64
open Float.Model Float.Model.UnpackedFloat

/-- The sign of a number, which a value that is no number does not have. -/
def sign? : UnpackedFloat → Option Sign
  | .infinity s => some s
  | .notANumber => none
  | .zero s => some s
  | .finite s _ _ _ => some s

/-- What is not below zero. Zero is not, with either sign. -/
def isNonneg : UnpackedFloat → Bool
  | .zero _ => true
  | f => match sign? f with
    | some .positive => true
    | _ => false

theorem isNaN_iff {f : UnpackedFloat} : f.isNaN = true ↔ sign? f = none := by
  cases f with
  | notANumber => exact iff_of_true rfl rfl
  | _ => exact iff_of_false Bool.false_ne_true (Option.some_ne_none _)

theorem isNonneg_of_positive {f : UnpackedFloat} (h : sign? f = some .positive) :
    isNonneg f = true := by
  cases f with
  | infinity s =>
    obtain rfl := Option.some.inj h
    rfl
  | notANumber => cases h
  | zero s => rfl
  | finite s m e hm =>
    obtain rfl := Option.some.inj h
    rfl

theorem ofBitVec_toBitVec (s : Sign) : Sign.ofBitVec s.toBitVec = s := by
  cases s <;> rfl

theorem unpackSign_packComponents {spec : Format} {s : Sign} {e : BitVec spec.exponentBits}
    {m : BitVec spec.mantissaBitsWithoutImplicit} :
    unpackSign (packComponents spec s e m) = s.toBitVec := by
  have hlast : ∀ b : BitVec spec.numBits, (unpackSign b)[0] =
      b.getLsbD (spec.mantissaBitsWithoutImplicit + spec.exponentBits) := by
    intro b
    change ((b.extractLsb (spec.mantissaBitsWithoutImplicit + spec.exponentBits)
      (spec.mantissaBitsWithoutImplicit + spec.exponentBits)).cast _)[0] = _
    simp
  ext i hi
  obtain rfl : i = 0 := by omega
  rw [hlast]
  have hbit : (s.toBitVec ++ e ++ m).getLsbD
      (spec.mantissaBitsWithoutImplicit + spec.exponentBits) = s.toBitVec[0] := by
    rw [BitVec.getLsbD_append, if_neg (by omega), BitVec.getLsbD_append, if_neg (by omega)]
    simp
  exact hbit

/-- Unless the bits are those of no number, what they are unpacked to has the sign in them. -/
theorem sign?_unpack {spec : Format} {b : BitVec spec.numBits}
    (h : unpackExponent b = -1#_ → unpackMantissa b = 0#_) :
    sign? (unpack spec b) = some (Sign.ofBitVec (unpackSign b)) := by
  by_cases hexponent : unpackExponent b = -1#_
  · exact congrArg sign? ((if_pos hexponent).trans (if_pos (h hexponent)))
  · by_cases hzero : unpackExponent b = 0#_
    · by_cases hmantissa : unpackMantissa b = 0#_
      · exact congrArg sign? ((if_neg hexponent).trans ((if_pos hzero).trans (dif_pos hmantissa)))
      · exact congrArg sign? ((if_neg hexponent).trans ((if_pos hzero).trans (dif_neg hmantissa)))
    · exact congrArg sign? ((if_neg hexponent).trans (if_neg hzero))

/-- The components of a number are unpacked to one of the same sign. -/
theorem sign?_unpack_packComponents {spec : Format} {s : Sign} {e : BitVec spec.exponentBits}
    {m : BitVec spec.mantissaBitsWithoutImplicit} (h : e = -1#_ → m = 0#_) :
    sign? (unpack spec (packComponents spec s e m)) = some s := by
  have hunpack : unpackExponent (packComponents spec s e m) = -1#_ →
      unpackMantissa (packComponents spec s e m) = 0#_ := by
    rw [unpackExponent_packComponents, unpackMantissa_packComponents]
    exact h
  rw [sign?_unpack hunpack, unpackSign_packComponents, ofBitVec_toBitVec]

/-- Packing keeps the sign of a number, and makes no number of what is none. -/
theorem sign?_unpack_pack (f : UnpackedFloat) :
    sign? (unpack .binary64 (pack .binary64 f)) = sign? f := by
  cases f with
  | infinity s => exact sign?_unpack_packComponents fun _ => rfl
  | notANumber => rfl
  | zero s => exact sign?_unpack_packComponents fun _ => rfl
  | finite s m e hm =>
    change sign? (unpack .binary64 (if _ ≤ _ then _ else if _ = _ then _ else _)) = some s
    split_ifs with hoverflow hnormal
    · exact sign?_unpack_packComponents fun _ => rfl
    · apply sign?_unpack_packComponents
      intro hexponent
      have hbiased := congrArg BitVec.toNat hexponent
      have hexponentBits : Format.binary64.exponentBits = 11 := rfl
      have hmantissaBits : Format.binary64.mantissaBitsWithoutImplicit = 52 := rfl
      rw [hexponentBits, hmantissaBits] at hoverflow
      simp at hbiased
      omega
    · apply sign?_unpack_packComponents
      intro hexponent
      exact absurd hexponent (by decide)

theorem isNonneg_unpack_pack {f : UnpackedFloat} (h : isNonneg f = true) :
    isNonneg (unpack .binary64 (pack .binary64 f)) = true := by
  cases f with
  | infinity s => cases s with
    | negative => cases h
    | positive => decide +kernel
  | notANumber => cases h
  | zero s => cases s <;> decide +kernel
  | finite s m e hm => cases s with
    | negative => cases h
    | positive => exact isNonneg_of_positive (sign?_unpack_pack _)

theorem isNaN_unpack_pack (f : UnpackedFloat) :
    (unpack .binary64 (pack .binary64 f)).isNaN = f.isNaN := by
  rw [Bool.eq_iff_iff, isNaN_iff, isNaN_iff, sign?_unpack_pack]

theorem zero_le_iff {x : Float} : 0 ≤ x ↔ isNonneg x.toModel.unpack = true := by
  have hle : 0 ≤ x ↔ (0 : Float).toModel.unpack.le x.toModel.unpack = true := decide_eq_true_iff
  have hzero : (0 : Float).toModel.unpack = .zero .positive := rfl
  rw [hle, hzero]
  cases x.toModel.unpack with
  | infinity s => cases s <;> decide
  | notANumber => decide
  | zero s => cases s <;> decide
  | finite s m e hm => cases s <;> rfl

/-- Rounding keeps the sign, also where it rounds to zero. -/
theorem sign?_roundWithAccuracy (spec : Format) (s : Sign) (m : ℕ) (e : ℤ) (a : Accuracy) :
    sign? (roundWithAccuracy spec s m e a) = some s := by
  unfold roundWithAccuracy
  exact (apply_dite sign? _ _ _).trans (dite_eq_ite.trans (ite_self _))

/-- A product of values that are not below zero is not below zero either, if it is a number. -/
theorem isNonneg_mul {spec : Format} {f g : UnpackedFloat} (hf : isNonneg f = true)
    (hg : isNonneg g = true) (hnumber : (f.mul spec g).isNaN = false) :
    isNonneg (f.mul spec g) = true := by
  cases f with
  | infinity s => cases s with
    | negative => cases hf
    | positive => cases g with
      | infinity s => cases s <;> first | rfl | cases hg
      | notANumber => cases hg
      | zero s => cases hnumber
      | finite s m e hm => cases s <;> first | rfl | cases hg
  | notANumber => cases hf
  | zero s => cases g with
    | infinity s => cases hnumber
    | notANumber => cases hg
    | zero s => rfl
    | finite s m e hm => rfl
  | finite s m e hm => cases s with
    | negative => cases hf
    | positive => cases g with
      | infinity s => cases s <;> first | rfl | cases hg
      | notANumber => cases hg
      | zero s => rfl
      | finite s m e hm => cases s with
        | negative => cases hg
        | positive => exact isNonneg_of_positive (sign?_roundWithAccuracy _ _ _ _ _)

theorem isNaN_eq (x : Float) : x.isNaN = x.toModel.unpack.isNaN := rfl

theorem unpack_mul (x y : Float) : (x * y).toModel.unpack =
    unpack .binary64 (pack .binary64 (x.toModel.unpack.mul .binary64 y.toModel.unpack)) := rfl

theorem isNaN_mul (x y : Float) :
    (x * y).isNaN = (x.toModel.unpack.mul .binary64 y.toModel.unpack).isNaN := by
  rw [isNaN_eq, unpack_mul, isNaN_unpack_pack]

variable {x y : Float}

theorem not_isNaN (hx : 0 ≤ x) : x.isNaN = false := by
  rw [zero_le_iff] at hx
  rw [isNaN_eq]
  cases hu : x.toModel.unpack with
  | notANumber => rw [hu] at hx; cases hx
  | _ => rfl

/-- Only what is no number fails a comparison with zero, of the products of such values. -/
theorem zero_le_mul_iff (hx : 0 ≤ x) (hy : 0 ≤ y) : 0 ≤ x * y ↔ (x * y).isNaN = false := by
  constructor
  · exact not_isNaN
  · intro hnumber
    rw [isNaN_mul] at hnumber
    rw [zero_le_iff, unpack_mul]
    exact isNonneg_unpack_pack (isNonneg_mul (zero_le_iff.mp hx) (zero_le_iff.mp hy) hnumber)

theorem isInf_eq (x : Float) : x.isInf = x.toModel.unpack.isInf := rfl

def isZero : UnpackedFloat → Bool
  | .zero _ => true
  | _ => false

theorem beq_zero (x : Float) : (x == 0) = isZero x.toModel.unpack := by
  have hbeq : (x == 0) = x.toModel.unpack.beq (0 : Float).toModel.unpack := rfl
  have hzero : (0 : Float).toModel.unpack = .zero .positive := rfl
  rw [hbeq, hzero]
  cases x.toModel.unpack with
  | infinity s => cases s <;> rfl
  | notANumber => rfl
  | zero s => rfl
  | finite s m e hm => cases s <;> rfl

theorem isNaN_mul_eq {spec : Format} {f g : UnpackedFloat} (hf : f.isNaN = false)
    (hg : g.isNaN = false) :
    (f.mul spec g).isNaN = (isZero f && g.isInf || f.isInf && isZero g) := by
  cases f with
  | notANumber => cases hf
  | infinity s => cases g with
    | notANumber => cases hg
    | _ => rfl
  | zero s => cases g with
    | notANumber => cases hg
    | _ => rfl
  | finite s m e hm => cases g with
    | notANumber => cases hg
    | finite s' m' e' hm' =>
      have h : (roundWithAccuracy spec (s * s') (m * m') (e + e') .exact).isNaN = false := by
        rw [Bool.eq_false_iff, Ne, isNaN_iff, sign?_roundWithAccuracy]
        exact Option.some_ne_none _
      exact h
    | _ => rfl

/-- Of the products of numbers, only zero times infinity is no number. -/
theorem isNaN_mul_iff (hx : 0 ≤ x) (hy : 0 ≤ y) :
    (x * y).isNaN = true ↔ (x == 0) = true ∧ y.isInf = true ∨ x.isInf = true ∧ (y == 0) = true := by
  have hx := not_isNaN hx
  have hy := not_isNaN hy
  rw [isNaN_eq] at hx hy
  rw [isNaN_mul, isNaN_mul_eq hx hy, beq_zero, beq_zero, isInf_eq, isInf_eq]
  simp only [Bool.or_eq_true, Bool.and_eq_true]

theorem mul_signedInfinity (spec : Format) {f : UnpackedFloat} (hf : f.isNaN = false)
    (hzero : isZero f = false) (t : Sign) : ∃ s, f.mul spec (.infinity t) = .infinity s := by
  cases f with
  | infinity s => exact ⟨_, rfl⟩
  | notANumber => cases hf
  | zero s => cases hzero
  | finite s m e hm => exact ⟨_, rfl⟩

theorem mul_signedZero (spec : Format) {f : UnpackedFloat} (hf : f.isNaN = false)
    (hinf : f.isInf = false) (t : Sign) : ∃ s, f.mul spec (.zero t) = .zero s := by
  cases f with
  | infinity s => cases hinf
  | notANumber => cases hf
  | zero s => exact ⟨_, rfl⟩
  | finite s m e hm => exact ⟨_, rfl⟩

/-- A product with infinity is not zero. -/
theorem beq_zero_mul_of_isInf (hx : x.isNaN = false) (hzero : (x == 0) = false)
    (hinf : y.isInf = true) : (x * y == 0) = false := by
  rw [isNaN_eq] at hx
  rw [beq_zero] at hzero
  rw [isInf_eq] at hinf
  rw [beq_zero, unpack_mul]
  cases hy : y.toModel.unpack with
  | infinity t =>
    obtain ⟨s, hs⟩ := mul_signedInfinity .binary64 hx hzero t
    rw [hs]
    cases s <;> rfl
  | _ => rw [hy] at hinf; cases hinf

/-- A product with zero is not infinite. -/
theorem isInf_mul_zero (hx : x.isNaN = false) (hinf : x.isInf = false) (hzero : (y == 0) = true) :
    (x * y).isInf = false := by
  rw [isNaN_eq] at hx
  rw [isInf_eq] at hinf
  rw [beq_zero] at hzero
  rw [isInf_eq, unpack_mul]
  cases hy : y.toModel.unpack with
  | zero t =>
    obtain ⟨s, hs⟩ := mul_signedZero .binary64 hx hinf t
    rw [hs]
    cases s <;> rfl
  | _ => rw [hy] at hzero; cases hzero

/-- A number that is multiplied again by the same factor remains a number. -/
theorem zero_le_mul_mul (hx : 0 ≤ x) (hy : 0 ≤ y) (hxy : 0 ≤ x * y) : 0 ≤ x * y * y := by
  have hnumber := not_isNaN hxy
  rw [Bool.eq_false_iff, Ne, isNaN_mul_iff hx hy, not_or, not_and, not_and] at hnumber
  rw [zero_le_mul_iff hxy hy, Bool.eq_false_iff, Ne, isNaN_mul_iff hxy hy]
  rintro (⟨hzero, hinf⟩ | ⟨hinf, hzero⟩)
  · have hxzero : (x == 0) = false := Bool.eq_false_iff.mpr fun h => hnumber.1 h hinf
    rw [beq_zero_mul_of_isInf (not_isNaN hx) hxzero hinf] at hzero
    cases hzero
  · have hxinf : x.isInf = false := Bool.eq_false_iff.mpr fun h => hnumber.2 h hzero
    rw [isInf_mul_zero (not_isNaN hx) hxinf hzero] at hinf
    cases hinf

end SignalIOS.Lib.Binary64
