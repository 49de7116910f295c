import Mathlib.Data.Nat.Digits.Lemmas
import Mathlib.Data.Nat.Size
import SignalIOS.Lib.RingBuffer
import SignalIOS.Srtp.CounterBlocks

/-! How `EvpKeyAgreement` packs the public keys of elliptic curves. -/
namespace SignalIOS.Zrtp
open SignalIOS.Lib SignalIOS.Srtp

def checkSecurityOperation (condition : Prop) [Decidable condition] : Throws Unit :=
  if condition then .ok () else .error .securityFailure

/-- An operation of OpenSSL that has something as its result, if it succeeds. -/
def checkEvpOperationResult {α : Type} : Option α → Throws α
  | none => .error .securityFailure
  | some result => .ok result

def bnNumBytes (n : ℕ) : ℕ := (Nat.size n + 7) / 8

/-- As many bytes as the number needs, the highest one first. -/
def bnBn2bin (n : ℕ) : NSData := (Nat.digits 256 n).reverse.map UInt8.ofNat

def bnBin2bn (bytes : NSData) : ℕ := bigEndianValue bytes

/-- A group of OpenSSL, by the affine coordinates of its points. The point at infinity has none, and
not all numbers are those of a point. -/
structure EcGroup (EcPoint : Type) where
  getAffineCoordinates : EcPoint → Option (ℕ × ℕ)
  setAffineCoordinates : ℕ → ℕ → Option EcPoint

def ec25CoordinateLength : ℕ := 32

section
variable {EcPoint : Type}

def packEcCoordinatesFromEcPoint (ecGroup : EcGroup EcPoint) (ecPoint : EcPoint) :
    Throws NSData := do
  let (x, y) ← checkEvpOperationResult (ecGroup.getAffineCoordinates ecPoint)
  let lenX := bnNumBytes x
  let lenY := bnNumBytes y
  checkSecurityOperation (lenX ≤ ec25CoordinateLength)
  checkSecurityOperation (lenY ≤ ec25CoordinateLength)
  let unusedX := ec25CoordinateLength - lenX
  let unusedY := ec25CoordinateLength - lenY
  let data : NSData := List.replicate (ec25CoordinateLength * 2) 0
  let bytesX := bnBn2bin x
  let data := overwrite data unusedX bytesX
  let bytesY := bnBn2bin y
  let data := overwrite data (ec25CoordinateLength + unusedY) bytesY
  checkSecurityOperation (bytesX.length = lenX ∧ bytesY.length = lenY)
  return data

def unpackEcCoordinatesFromBuffer (ecGroup : EcGroup EcPoint) (buffer : NSData) :
    Throws EcPoint := do
  checkOperation (buffer.length = 2 * ec25CoordinateLength)
  let x := bnBin2bn (stretch buffer 0 ec25CoordinateLength)
  let y := bnBin2bn (stretch buffer ec25CoordinateLength ec25CoordinateLength)
  checkEvpOperationResult (ecGroup.setAffineCoordinates x y)

end

theorem length_bnBn2bin (n : ℕ) : (bnBn2bin n).length = bnNumBytes n := by
  rw [bnBn2bin, List.length_map, List.length_reverse]
  have hle (k : ℕ) : (Nat.digits 256 n).length ≤ k ↔ bnNumBytes n ≤ k := by
    have hpow : 256 ^ k = 2 ^ (8 * k) := by rw [Nat.pow_mul]
    rw [Nat.digits_length_le_iff (by decide), hpow, ← Nat.size_le, bnNumBytes]
    omega
  exact Nat.le_antisymm ((hle _).mpr (Nat.le_refl _)) ((hle _).mp (Nat.le_refl _))

theorem bnNumBytes_le {n k : ℕ} : bnNumBytes n ≤ k ↔ n < 2 ^ (8 * k) := by
  rw [← Nat.size_le, bnNumBytes]
  omega

theorem bigEndianValue_bnBn2bin (n : ℕ) : bigEndianValue (bnBn2bin n) = n := by
  have hdigits : (bnBn2bin n).reverse.map UInt8.toNat = Nat.digits 256 n := by
    have hback : ∀ d ∈ Nat.digits 256 n, (UInt8.toNat ∘ UInt8.ofNat) d = id d := by
      intro d hd
      have hlt : d < 256 := Nat.digits_lt_base (by decide) hd
      exact Nat.mod_eq_of_lt hlt
    rw [bnBn2bin, ← List.map_reverse, List.reverse_reverse, List.map_map,
      List.map_congr_left hback, List.map_id]
  rw [bigEndianValue, hdigits, Nat.ofDigits_digits]

theorem bigEndianValue_replicate (k : ℕ) : bigEndianValue (List.replicate k 0) = 0 := by
  induction k with
  | zero => rfl
  | succ k ih =>
    have hzero : bigEndianValue [0] = 0 := rfl
    rw [List.replicate_succ, ← List.singleton_append, bigEndianValue_append, ih, hzero,
      Nat.mul_zero]

/-- A coordinate in its half of the buffer, behind as many zeros as it leaves room for. -/
def paddedCoordinate (n : ℕ) : NSData :=
  List.replicate (ec25CoordinateLength - bnNumBytes n) 0 ++ bnBn2bin n

theorem length_paddedCoordinate {n : ℕ} (h : n < 2 ^ 256) :
    (paddedCoordinate n).length = ec25CoordinateLength := by
  have hle : bnNumBytes n ≤ ec25CoordinateLength := bnNumBytes_le.mpr h
  rw [paddedCoordinate, List.length_append, List.length_replicate, length_bnBn2bin]
  omega

/-- The zeros in front do not count. -/
theorem bnBin2bn_paddedCoordinate (n : ℕ) : bnBin2bn (paddedCoordinate n) = n := by
  rw [bnBin2bn, paddedCoordinate, bigEndianValue_append, bigEndianValue_replicate, Nat.mul_zero,
    Nat.add_zero, bigEndianValue_bnBn2bin]

/-- A coordinate is written at the end of zeros. -/
theorem overwrite_replicate {n : ℕ} (h : n < 2 ^ 256) (back : NSData) :
    overwrite (List.replicate ec25CoordinateLength 0 ++ back)
        (ec25CoordinateLength - bnNumBytes n) (bnBn2bin n) = paddedCoordinate n ++ back := by
  have hle : bnNumBytes n ≤ ec25CoordinateLength := bnNumBytes_le.mpr h
  have hzeros : List.replicate ec25CoordinateLength (0 : UInt8) =
      List.replicate (ec25CoordinateLength - bnNumBytes n) 0 ++
        List.replicate (bnBn2bin n).length 0 := by
    rw [List.replicate_append_replicate, length_bnBn2bin, Nat.sub_add_cancel hle]
  have hunused : ec25CoordinateLength - bnNumBytes n =
      (List.replicate (ec25CoordinateLength - bnNumBytes n) (0 : UInt8)).length :=
    List.length_replicate.symm
  rw [hzeros, List.append_assoc]
  nth_rewrite 2 [hunused]
  rw [overwrite_append_length, overwrite_append List.length_replicate, paddedCoordinate,
    List.append_assoc]

section
variable {EcPoint : Type} {ecGroup : EcGroup EcPoint} {ecPoint : EcPoint} {x y : ℕ}

theorem packEcCoordinatesFromEcPoint_eq_ok
    (hpoint : ecGroup.getAffineCoordinates ecPoint = some (x, y)) (hx : x < 2 ^ 256)
    (hy : y < 2 ^ 256) :
    packEcCoordinatesFromEcPoint ecGroup ecPoint =
      .ok (paddedCoordinate x ++ paddedCoordinate y) := by
  have hlenX : bnNumBytes x ≤ ec25CoordinateLength := bnNumBytes_le.mpr hx
  have hlenY : bnNumBytes y ≤ ec25CoordinateLength := bnNumBytes_le.mpr hy
  have hzeros : List.replicate (ec25CoordinateLength * 2) (0 : UInt8) =
      List.replicate ec25CoordinateLength 0 ++ List.replicate ec25CoordinateLength 0 := rfl
  have hwroteX := overwrite_replicate hx (List.replicate ec25CoordinateLength 0)
  have hwroteY := overwrite_append_right (paddedCoordinate x)
    (List.replicate ec25CoordinateLength 0) (bnBn2bin y) (ec25CoordinateLength - bnNumBytes y)
  have hlast := overwrite_replicate hy []
  rw [List.append_nil, List.append_nil] at hlast
  rw [length_paddedCoordinate hx, hlast] at hwroteY
  have hcoordinates : checkEvpOperationResult (ecGroup.getAffineCoordinates ecPoint) =
      .ok (x, y) := by
    rw [hpoint]
    rfl
  have hwrote : checkSecurityOperation
      ((bnBn2bin x).length = bnNumBytes x ∧ (bnBn2bin y).length = bnNumBytes y) = .ok () :=
    if_pos ⟨length_bnBn2bin x, length_bnBn2bin y⟩
  have hdata : overwrite (overwrite (List.replicate (ec25CoordinateLength * 2) 0)
      (ec25CoordinateLength - bnNumBytes x) (bnBn2bin x))
      (ec25CoordinateLength + (ec25CoordinateLength - bnNumBytes y)) (bnBn2bin y) =
        paddedCoordinate x ++ paddedCoordinate y := by
    rw [hzeros, hwroteX, hwroteY]
  exact Throws.bind_eq_ok.mpr ⟨_, hcoordinates, Throws.bind_eq_ok.mpr ⟨(), if_pos hlenX,
    Throws.bind_eq_ok.mpr ⟨(), if_pos hlenY, Throws.bind_eq_ok.mpr ⟨(), hwrote,
      Throws.pure_eq_ok.mpr hdata⟩⟩⟩⟩

/-- The halves of the buffer are the coordinates. -/
theorem unpackEcCoordinatesFromBuffer_append (ecGroup : EcGroup EcPoint) {front back : NSData}
    (hfront : front.length = ec25CoordinateLength) (hback : back.length = ec25CoordinateLength) :
    unpackEcCoordinatesFromBuffer ecGroup (front ++ back) =
      checkEvpOperationResult
        (ecGroup.setAffineCoordinates (bnBin2bn front) (bnBin2bn back)) := by
  have hlength : (front ++ back).length = 2 * ec25CoordinateLength := by
    rw [List.length_append, hfront, hback]
    rfl
  have hx : stretch (front ++ back) 0 ec25CoordinateLength = front := by
    rw [stretch, List.drop_zero, ← hfront, List.take_left]
  have hy : stretch (front ++ back) ec25CoordinateLength ec25CoordinateLength = back := by
    rw [stretch, List.drop_left' hfront, ← hback, List.take_length]
  rw [unpackEcCoordinatesFromBuffer, hx, hy, checkOperation, if_pos hlength]
  rfl

/-- A point whose coordinates fit is packed into 64 bytes, out of which its coordinates are set
again, however many zero bytes those begin with. -/
theorem packEcCoordinatesFromEcPoint_spec
    (hpoint : ecGroup.getAffineCoordinates ecPoint = some (x, y)) (hx : x < 2 ^ 256)
    (hy : y < 2 ^ 256) :
    ∃ data, packEcCoordinatesFromEcPoint ecGroup ecPoint = .ok data ∧ data.length = 64 ∧
      ∀ (EcPoint' : Type) (ecGroup' : EcGroup EcPoint'),
        unpackEcCoordinatesFromBuffer ecGroup' data =
          checkEvpOperationResult (ecGroup'.setAffineCoordinates x y) := by
  have hlengthX := length_paddedCoordinate hx
  have hlengthY := length_paddedCoordinate hy
  have hlength : (paddedCoordinate x ++ paddedCoordinate y).length = 64 := by
    rw [List.length_append, hlengthX, hlengthY]
    rfl
  refine ⟨_, packEcCoordinatesFromEcPoint_eq_ok hpoint hx hy, hlength, ?_⟩
  intro EcPoint' ecGroup'
  rw [unpackEcCoordinatesFromBuffer_append ecGroup' hlengthX hlengthY, bnBin2bn_paddedCoordinate,
    bnBin2bn_paddedCoordinate]

/-- A half of a buffer is the only form of the coordinate in it. -/
theorem paddedCoordinate_bnBin2bn {bytes : NSData} (h : bytes.length = ec25CoordinateLength) :
    paddedCoordinate (bnBin2bn bytes) = bytes := by
  have hlt : bnBin2bn bytes < 256 ^ bytes.length := bigEndianValue_lt bytes
  rw [h] at hlt
  apply bigEndianValue_inj
  · rw [length_paddedCoordinate hlt, h]
  · exact bnBin2bn_paddedCoordinate _

/-- A buffer out of which a point has been set is the one that the point is packed into. -/
theorem packEcCoordinatesFromEcPoint_of_unpack {buffer : NSData}
    (hset : ∀ x y ecPoint, ecGroup.setAffineCoordinates x y = some ecPoint →
      ecGroup.getAffineCoordinates ecPoint = some (x, y))
    (h : unpackEcCoordinatesFromBuffer ecGroup buffer = .ok ecPoint) :
    packEcCoordinatesFromEcPoint ecGroup ecPoint = .ok buffer := by
  obtain ⟨_, hcheck, -⟩ := Throws.bind_eq_ok.mp h
  have hlength : buffer.length = 2 * ec25CoordinateLength := checkOperation_eq_ok.mp hcheck
  obtain ⟨front, back, rfl, hfront⟩ := exists_append (l := buffer)
    (Nat.le.intro (hlength.trans (Nat.two_mul _)).symm)
  have hback : back.length = ec25CoordinateLength := by
    rw [List.length_append] at hlength
    omega
  rw [unpackEcCoordinatesFromBuffer_append ecGroup hfront hback] at h
  cases hpoint : ecGroup.setAffineCoordinates (bnBin2bn front) (bnBin2bn back) with
  | none =>
    rw [hpoint] at h
    cases h
  | some result =>
    rw [hpoint] at h
    obtain rfl := Except.ok.inj h
    have hx := bigEndianValue_lt front
    have hy := bigEndianValue_lt back
    rw [hfront] at hx
    rw [hback] at hy
    rw [packEcCoordinatesFromEcPoint_eq_ok (hset _ _ _ hpoint) hx hy,
      paddedCoordinate_bnBin2bn hfront, paddedCoordinate_bnBin2bn hback]

end

section Sample

/-- The curve that `NAMED_ELLIPTIC_CURVE` names, with `none` for its point at infinity. -/
def prime256v1 : EcGroup (Option (ℕ × ℕ)) where
  getAffineCoordinates ecPoint := ecPoint
  setAffineCoordinates x y :=
    let p := 0xffffffff00000001000000000000000000000000ffffffffffffffffffffffff
    let b := 0x5ac635d8aa3a93e7b3ebbd55769886bc651d06b0cc53b0f63bce3c3e27d2604b
    if x < p ∧ y < p ∧ (y * y + 3 * x) % p = (x * x * x + b) % p then some (some (x, y)) else none

def zeroAbscissa : ℕ × ℕ :=
  (0, 0x66485c780e2f83d72433bd5d84a06bb6541c2af31dae871728bf856a174f93f4)

/-- A point on the curve with no byte in its first coordinate. -/
theorem packEcCoordinatesFromEcPoint_spec_sample :
    ∃ data, packEcCoordinatesFromEcPoint prime256v1 (some zeroAbscissa) = .ok data ∧
      data.length = 64 ∧
      unpackEcCoordinatesFromBuffer prime256v1 data = .ok (some zeroAbscissa) := by
  have hpoint : prime256v1.getAffineCoordinates (some zeroAbscissa) =
      some (zeroAbscissa.1, zeroAbscissa.2) := rfl
  obtain ⟨data, hdata, hlength, hunpack⟩ :=
    packEcCoordinatesFromEcPoint_spec hpoint (by decide) (by decide)
  refine ⟨data, hdata, hlength, ?_⟩
  rw [hunpack]
  decide +kernel

end Sample

end SignalIOS.Zrtp
