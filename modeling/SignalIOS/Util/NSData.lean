import Mathlib.Algebra.Ring.Nat
import Mathlib.Data.List.Forall2
import Mathlib.Data.Nat.Notation
import Mathlib.Tactic.SplitIfs

/-! Byte strings, the helpers of `NSData` on them, and the exceptions these raise. -/
namespace SignalIOS

abbrev NSData := List UInt8

/-- The exceptions that are raised. `BadArgument` and `BadState` are violated contracts,
`NSRangeException` is a range outside the data. -/
inductive Exception
  | operationFailed (description : Option String)
  | securityFailure
  | badArgument
  | badState
  | nsRangeException
  deriving DecidableEq, Repr

abbrev Throws := Except Exception

/-- `checkOperation` and `checkOperationDescribe`. -/
def checkOperation (condition : Prop) [Decidable condition] (description : Option String := none) :
    Throws Unit :=
  if condition then .ok () else .error (.operationFailed description)

def owsRequire (condition : Prop) [Decidable condition] : Throws Unit :=
  if condition then .ok () else .error .badArgument

def requireState (condition : Prop) [Decidable condition] : Throws Unit :=
  if condition then .ok () else .error .badState

/-- `ows_require(object != nil)`, for an object that is used afterwards. -/
def owsRequireNotNil {α : Type} : Option α → Throws α
  | none => .error .badArgument
  | some object => .ok object

/-- A message that returns nothing. Sent to `nil` it does nothing. -/
def tell {α : Type} (receiver : Option α) (message : α → Throws Unit) : Throws Unit :=
  match receiver with
  | none => .ok ()
  | some object => message object

section
variable {condition : Prop} [Decidable condition] {u : Unit}

@[simp] theorem checkOperation_eq_ok {description : Option String} :
    checkOperation condition description = .ok u ↔ condition := by
  simp [checkOperation]

@[simp] theorem owsRequire_eq_ok : owsRequire condition = .ok u ↔ condition := by
  simp [owsRequire]

@[simp] theorem requireState_eq_ok : requireState condition = .ok u ↔ condition := by
  simp [requireState]

@[simp] theorem owsRequireNotNil_eq_ok {α : Type} {object : Option α} {a : α} :
    owsRequireNotNil object = .ok a ↔ object = some a := by
  cases object <;> simp [owsRequireNotNil]

end

namespace Throws

theorem pure_eq_ok {α : Type} {a b : α} : (pure a : Throws α) = .ok b ↔ a = b :=
  ⟨Except.ok.inj, congrArg _⟩

/-- Where a sequence of statements returns, each of them does. -/
theorem bind_eq_ok {α β : Type} {x : Throws α} {f : α → Throws β} {b : β} :
    x >>= f = .ok b ↔ ∃ a, x = .ok a ∧ f a = .ok b := by
  cases x with
  | ok a => exact ⟨fun h => ⟨a, rfl, h⟩, fun ⟨_, ha, h⟩ => (Except.ok.inj ha) ▸ h⟩
  | error e => exact ⟨nofun, fun ⟨_, ha, _⟩ => nomatch ha⟩

/-- A loop returns where each of its rounds does. -/
theorem mapM_eq_ok {α β : Type} {f : α → Throws β} {l : List α} {r : List β} :
    l.mapM f = .ok r ↔ List.Forall₂ (fun a b => f a = .ok b) l r := by
  induction l generalizing r with
  | nil =>
    rw [List.mapM_nil, pure_eq_ok, List.forall₂_nil_left_iff]
    exact eq_comm
  | cons a l ih =>
    rw [List.mapM_cons, bind_eq_ok, List.forall₂_cons_left_iff]
    constructor
    · intro ⟨b, hb, h⟩
      obtain ⟨bs, hbs, hr⟩ := bind_eq_ok.mp h
      exact ⟨b, bs, hb, ih.mp hbs, (pure_eq_ok.mp hr).symm⟩
    · intro ⟨b, bs, hb, hbs, hr⟩
      exact ⟨b, hb, bind_eq_ok.mpr ⟨bs, ih.mpr hbs, pure_eq_ok.mpr hr.symm⟩⟩

theorem mapM_range_eq_ok {β : Type} {f : ℕ → Throws β} {n : ℕ} {r : List β} :
    (List.range n).mapM f = .ok r ↔
      r.length = n ∧ ∀ i (hi : i < r.length), f i = .ok r[i] := by
  rw [mapM_eq_ok, List.forall₂_iff_get]
  simp only [List.length_range, List.get_eq_getElem, List.getElem_range]
  constructor
  · intro ⟨hlength, hrounds⟩
    exact ⟨hlength.symm, fun i hi => hrounds i (hlength ▸ hi) hi⟩
  · intro ⟨hlength, hrounds⟩
    exact ⟨hlength.symm, fun i _ hi => hrounds i hi⟩

/-- A loop raises what one of its rounds raises. -/
theorem exists_of_mapM_eq_error {α β : Type} {f : α → Throws β} {l : List α} {e : Exception}
    (h : l.mapM f = .error e) : ∃ a ∈ l, f a = .error e := by
  induction l with
  | nil => cases h
  | cons a l ih =>
    rw [List.mapM_cons] at h
    cases ha : f a with
    | error e' =>
      rw [ha] at h
      have hsame : e' = e := Except.error.inj h
      exact ⟨a, List.mem_cons_self, by rw [ha, hsame]⟩
    | ok b =>
      cases hl : l.mapM f with
      | error e' =>
        rw [ha, hl] at h
        have hsame : e' = e := Except.error.inj h
        rw [← hsame] at ih ⊢
        obtain ⟨a', hmem, ha'⟩ := ih hl
        exact ⟨a', List.mem_cons_of_mem _ hmem, ha'⟩
      | ok bs =>
        rw [ha, hl] at h
        cases h

theorem mapError_eq_ok {α ε : Type} {x : Throws α} {f : Exception → ε} {a : α} :
    x.mapError f = .ok a ↔ x = .ok a := by
  cases x <;> simp [Except.mapError]

theorem mapError_eq_error {α ε : Type} {x : Throws α} {f : Exception → ε} {e : ε} :
    x.mapError f = .error e ↔ ∃ e', x = .error e' ∧ f e' = e := by
  cases x <;> simp [Except.mapError]

theorem eq_ok_of_toOption {α : Type} {x : Throws α} {a : α} (h : x.toOption = some a) :
    x = .ok a := by
  cases x with
  | ok b => exact congrArg Except.ok (Option.some.inj h)
  | error e => cases h

/-- Nothing but `OperationFailed` is raised. -/
def FailsSafely {α : Type} (x : Throws α) : Prop :=
  ∀ e, x = .error e → ∃ description, e = .operationFailed description

variable {α β : Type} {x : Throws α} {f : α → Throws β}

theorem failsSafely_ok (a : α) : FailsSafely (.ok a) := by
  intro e he
  cases he

theorem failsSafely_operationFailed (description : Option String) :
    FailsSafely (.error (.operationFailed description) : Throws α) := by
  intro e he
  cases he
  exact ⟨description, rfl⟩

theorem failsSafely_of_eq_ok {a : α} (h : x = .ok a) : FailsSafely x := by
  rw [h]
  exact failsSafely_ok a

theorem failsSafely_bind :
    FailsSafely (x >>= f) ↔ FailsSafely x ∧ ∀ a, x = .ok a → FailsSafely (f a) := by
  cases x with
  | ok a =>
    constructor
    · intro h
      refine ⟨failsSafely_ok a, ?_⟩
      rintro _ ⟨⟩
      exact h
    · rintro ⟨-, h⟩
      exact h a rfl
  | error e =>
    constructor
    · intro h
      constructor
      · rintro _ ⟨⟩
        exact h e rfl
      · rintro _ ⟨⟩
    · rintro ⟨h, -⟩ _ ⟨⟩
      exact h e rfl

theorem failsSafely_ok_bind {a : α} : FailsSafely (.ok a >>= f) ↔ FailsSafely (f a) := Iff.rfl

theorem failsSafely_map {g : α → β} : FailsSafely (g <$> x) ↔ FailsSafely x := by
  cases x with
  | ok a => exact iff_of_true (failsSafely_ok _) (failsSafely_ok a)
  | error e =>
    constructor
    · intro h _ he
      cases he
      exact h e rfl
    · intro h _ he
      cases he
      exact h e rfl

theorem failsSafely_iff :
    FailsSafely x ↔
      (∃ a, x = .ok a) ∨ ∃ description, x = .error (.operationFailed description) := by
  constructor
  · intro h
    cases x with
    | ok a => exact .inl ⟨a, rfl⟩
    | error e =>
      obtain ⟨description, rfl⟩ := h e rfl
      exact .inr ⟨description, rfl⟩
  · rintro (⟨a, rfl⟩ | ⟨description, rfl⟩)
    · exact failsSafely_ok a
    · rintro _ ⟨⟩
      exact ⟨description, rfl⟩

theorem failsSafely_checkOperation {condition : Prop} [Decidable condition]
    {description : Option String} : FailsSafely (checkOperation condition description) := by
  unfold checkOperation
  split
  · exact failsSafely_ok _
  · exact failsSafely_operationFailed _

end Throws

def encodedAsAscii (text : String) : NSData := text.toList.map fun c => c.toNat.toUInt8

def dataWithBigEndianBytesOfUInt16 (value : UInt16) : NSData :=
  [(value >>> 8).toUInt8, value.toUInt8]

def dataWithBigEndianBytesOfUInt32 (value : UInt32) : NSData :=
  [(value >>> 24).toUInt8, (value >>> 16).toUInt8, (value >>> 8).toUInt8, value.toUInt8]

@[simp] theorem length_dataWithBigEndianBytesOfUInt16 (value : UInt16) :
    (dataWithBigEndianBytesOfUInt16 value).length = 2 := rfl

@[simp] theorem length_dataWithBigEndianBytesOfUInt32 (value : UInt32) :
    (dataWithBigEndianBytesOfUInt32 value).length = 4 := rfl

/-! The helpers named `…Volatile` share the bytes instead of copying them. But for
`subdataVolatileWithRange` they are the same functions here. -/

namespace NSData

def subdataWithRange (data : NSData) (location length : ℕ) : Throws NSData :=
  if location + length ≤ data.length then .ok ((data.drop location).take length)
  else .error .nsRangeException

def subdataVolatileWithRange (data : NSData) (location length : ℕ) : Throws NSData := do
  owsRequire (location ≤ data.length)
  owsRequire (length ≤ data.length)
  owsRequire (location + length ≤ data.length)
  data.subdataWithRange location length

def skip (data : NSData) (offset : ℕ) : Throws NSData := do
  owsRequire (offset ≤ data.length)
  data.subdataWithRange offset (data.length - offset)

def take (data : NSData) (takeCount : ℕ) : Throws NSData := do
  owsRequire (takeCount ≤ data.length)
  data.subdataWithRange 0 takeCount

def skipLast (data : NSData) (skipLastCount : ℕ) : Throws NSData := do
  owsRequire (skipLastCount ≤ data.length)
  data.subdataWithRange 0 (data.length - skipLastCount)

def takeLast (data : NSData) (takeLastCount : ℕ) : Throws NSData := do
  owsRequire (takeLastCount ≤ data.length)
  data.subdataWithRange (data.length - takeLastCount) takeLastCount

section
variable {data d : NSData} {n : ℕ}

theorem subdataWithRange_eq_ok {location : ℕ} : data.subdataWithRange location n = .ok d ↔
    location + n ≤ data.length ∧ d = (data.drop location).take n := by
  unfold subdataWithRange
  split_ifs with h <;> simp [h, eq_comm]

theorem skip_eq_ok : data.skip n = .ok d ↔ n ≤ data.length ∧ d = data.drop n := by
  simp only [skip, Throws.bind_eq_ok, owsRequire_eq_ok, subdataWithRange_eq_ok]
  constructor
  · rintro ⟨-, hn, -, rfl⟩
    exact ⟨hn, List.take_of_length_le (by simp)⟩
  · rintro ⟨hn, rfl⟩
    exact ⟨⟨⟩, hn, by omega, (List.take_of_length_le (by simp)).symm⟩

theorem take_eq_ok : data.take n = .ok d ↔ n ≤ data.length ∧ d = List.take n data := by
  simp only [take, Throws.bind_eq_ok, owsRequire_eq_ok, subdataWithRange_eq_ok, List.drop_zero]
  exact ⟨fun ⟨_, hn, _, hd⟩ => ⟨hn, hd⟩, fun ⟨hn, hd⟩ => ⟨⟨⟩, hn, by omega, hd⟩⟩

theorem skipLast_eq_ok : data.skipLast n = .ok d ↔
    n ≤ data.length ∧ d = List.take (data.length - n) data := by
  simp only [skipLast, Throws.bind_eq_ok, owsRequire_eq_ok, subdataWithRange_eq_ok, List.drop_zero]
  exact ⟨fun ⟨_, hn, _, hd⟩ => ⟨hn, hd⟩, fun ⟨hn, hd⟩ => ⟨⟨⟩, hn, by omega, hd⟩⟩

theorem takeLast_eq_ok : data.takeLast n = .ok d ↔
    n ≤ data.length ∧ d = List.drop (data.length - n) data := by
  simp only [takeLast, Throws.bind_eq_ok, owsRequire_eq_ok, subdataWithRange_eq_ok]
  constructor
  · rintro ⟨-, hn, -, rfl⟩
    exact ⟨hn, List.take_of_length_le (by simp; omega)⟩
  · rintro ⟨hn, rfl⟩
    exact ⟨⟨⟩, hn, by omega, (List.take_of_length_le (by simp; omega)).symm⟩

end

def uint8At (data : NSData) (offset : ℕ) : Throws UInt8 :=
  match data[offset]? with
  | none => .error .badArgument
  | some byte => .ok byte

def highUint4AtByteOffset (data : NSData) (offset : ℕ) : Throws UInt8 := do
  return (← data.uint8At offset) >>> 4

def lowUint4AtByteOffset (data : NSData) (offset : ℕ) : Throws UInt8 := do
  return (← data.uint8At offset) &&& 0xF

def bigEndianUInt16At (data : NSData) (offset : ℕ) : Throws UInt16 := do
  let low ← data.uint8At (1 + offset)
  let high ← data.uint8At offset
  return low.toUInt16 ||| (high.toUInt16 <<< 8)

def bigEndianUInt32At (data : NSData) (offset : ℕ) : Throws UInt32 := do
  let b0 ← data.uint8At (3 + offset)
  let b1 ← data.uint8At (2 + offset)
  let b2 ← data.uint8At (1 + offset)
  let b3 ← data.uint8At offset
  return b0.toUInt32 ||| (b1.toUInt32 <<< 8) ||| (b2.toUInt32 <<< 16) ||| (b3.toUInt32 <<< 24)

section
variable {data d rest : NSData} {n : ℕ}

theorem uint8At_eq_ok {byte : UInt8} : data.uint8At n = .ok byte ↔ data[n]? = some byte := by
  unfold uint8At
  split <;> simp [*]

theorem uint8At_of_drop {byte : UInt8} (h : data.drop n = byte :: rest) :
    data.uint8At n = .ok byte := by
  have hn : data[n]? = some byte := by
    rw [← Nat.add_zero n, ← List.getElem?_drop, h]
    rfl
  exact uint8At_eq_ok.mpr hn

/-- What stands behind a part of the data, that begins at `n`. -/
theorem drop_of_drop (h : data.drop n = d ++ rest) : data.drop (n + d.length) = rest := by
  rw [← List.drop_drop, h, List.drop_left]

theorem subdataWithRange_of_drop (h : data.drop n = d ++ rest) (hn : n ≤ data.length) :
    data.subdataWithRange n d.length = .ok d := by
  have hlength := congrArg List.length h
  simp only [List.length_drop, List.length_append] at hlength
  apply subdataWithRange_eq_ok.mpr
  constructor
  · omega
  · rw [h, List.take_left]

/-- A part of known length is read, and what stands behind it is found after it. -/
theorem subdataWithRange_step {location : ℕ} (h : data.drop location = d ++ rest)
    (hd : d.length = n) (hlocation : location ≤ data.length) :
    data.subdataWithRange location n = .ok d ∧ data.drop (location + n) = rest ∧
      location + n ≤ data.length := by
  have hlength := congrArg List.length h
  rw [List.length_drop, List.length_append] at hlength
  subst hd
  exact ⟨subdataWithRange_of_drop h hlocation, drop_of_drop h, by omega⟩

/-- A byte that is moved back to its place has the bits of the number there. -/
theorem testBit_byteInPlace (n k i : ℕ) :
    (((n >>> k) % 2 ^ 8) <<< k).testBit i = (decide (k ≤ i ∧ i < k + 8) && n.testBit i) := by
  rw [Nat.testBit_shiftLeft, Nat.testBit_mod_two_pow, Nat.testBit_shiftRight]
  by_cases hk : k ≤ i
  · have hlow : i - k < 8 ↔ k ≤ i ∧ i < k + 8 := by omega
    rw [decide_eq_true hk, Bool.true_and, Nat.add_sub_cancel' hk, decide_eq_decide.mpr hlow]
  · have hbelow : ¬ (k ≤ i ∧ i < k + 8) := fun h => hk h.1
    rw [decide_eq_false hk, decide_eq_false hbelow, Bool.false_and, Bool.false_and]

theorem lt_of_testBit_eq_true {n w i : ℕ} (hn : n < 2 ^ w) (hbit : n.testBit i = true) : i < w := by
  by_contra hi
  have hle : 2 ^ w ≤ 2 ^ i := Nat.pow_le_pow_right (by decide) (Nat.not_lt.mp hi)
  rw [Nat.testBit_lt_two_pow (Nat.lt_of_lt_of_le hn hle)] at hbit
  cases hbit

theorem uInt16_of_bytes (value : UInt16) :
    value.toUInt8.toUInt16 ||| ((value >>> 8).toUInt8.toUInt16 <<< 8) = value := by
  apply UInt16.toNat_inj.mp
  apply Nat.eq_of_testBit_eq
  intro i
  have hlow : value.toUInt8.toUInt16.toNat = ((value.toNat >>> 0) % 2 ^ 8) <<< 0 := rfl
  have hhigh : ((value >>> 8).toUInt8.toUInt16 <<< 8).toNat =
      (((value.toNat >>> 8) % 2 ^ 8) <<< 8) % 2 ^ 16 := rfl
  rw [UInt16.toNat_or, hlow, hhigh, Nat.testBit_or, Nat.testBit_mod_two_pow, testBit_byteInPlace,
    testBit_byteInPlace]
  cases hbit : value.toNat.testBit i with
  | false => simp only [Bool.and_false, Bool.or_false]
  | true =>
    have hi := lt_of_testBit_eq_true value.toNat_lt hbit
    simp only [Bool.and_true, decide_eq_true hi, Bool.true_and, Bool.or_eq_true, decide_eq_true_eq]
    omega

theorem uInt32_of_bytes (value : UInt32) :
    value.toUInt8.toUInt32 ||| ((value >>> 8).toUInt8.toUInt32 <<< 8) |||
      ((value >>> 16).toUInt8.toUInt32 <<< 16) ||| ((value >>> 24).toUInt8.toUInt32 <<< 24) =
        value := by
  apply UInt32.toNat_inj.mp
  apply Nat.eq_of_testBit_eq
  intro i
  have hlow : value.toUInt8.toUInt32.toNat = ((value.toNat >>> 0) % 2 ^ 8) <<< 0 := rfl
  have hplace (k : UInt32) (hk : k.toNat < 32) : ((value >>> k).toUInt8.toUInt32 <<< k).toNat =
      (((value.toNat >>> k.toNat) % 2 ^ 8) <<< k.toNat) % 2 ^ 32 := by
    rw [UInt32.toNat_shiftLeft, UInt8.toNat_toUInt32, UInt32.toNat_toUInt8, UInt32.toNat_shiftRight,
      Nat.mod_eq_of_lt hk]
  rw [UInt32.toNat_or, UInt32.toNat_or, UInt32.toNat_or, hlow, hplace 8 (by decide),
    hplace 16 (by decide), hplace 24 (by decide)]
  simp only [Nat.testBit_or, Nat.testBit_mod_two_pow, testBit_byteInPlace]
  cases hbit : value.toNat.testBit i with
  | false => simp only [Bool.and_false, Bool.or_false]
  | true =>
    have hi := lt_of_testBit_eq_true value.toNat_lt hbit
    simp only [Bool.and_true, decide_eq_true hi, Bool.true_and, Bool.or_eq_true, decide_eq_true_eq,
      UInt32.reduceToNat]
    omega

theorem bigEndianUInt16At_of_drop {value : UInt16}
    (h : data.drop n = dataWithBigEndianBytesOfUInt16 value ++ rest) :
    data.bigEndianUInt16At n = .ok value := by
  have hhigh : data.uint8At n = .ok (value >>> 8).toUInt8 := uint8At_of_drop h
  have hlow : data.uint8At (1 + n) = .ok value.toUInt8 := by
    rw [Nat.add_comm]
    exact uint8At_of_drop (drop_of_drop (d := [_]) h)
  rw [bigEndianUInt16At, hlow, hhigh]
  exact congrArg Except.ok (uInt16_of_bytes value)

theorem bigEndianUInt32At_of_drop {value : UInt32}
    (h : data.drop n = dataWithBigEndianBytesOfUInt32 value ++ rest) :
    data.bigEndianUInt32At n = .ok value := by
  have h3 : data.uint8At n = .ok (value >>> 24).toUInt8 := uint8At_of_drop h
  have h2 : data.uint8At (1 + n) = .ok (value >>> 16).toUInt8 := by
    rw [Nat.add_comm]
    exact uint8At_of_drop (drop_of_drop (d := [_]) h)
  have h1 : data.uint8At (2 + n) = .ok (value >>> 8).toUInt8 := by
    rw [Nat.add_comm]
    exact uint8At_of_drop (drop_of_drop (d := [_, _]) h)
  have h0 : data.uint8At (3 + n) = .ok value.toUInt8 := by
    rw [Nat.add_comm]
    exact uint8At_of_drop (drop_of_drop (d := [_, _, _]) h)
  rw [bigEndianUInt32At, h0, h1, h2, h3]
  exact congrArg Except.ok (uInt32_of_bytes value)

end

def setUint8At (data : NSData) (offset : ℕ) (newValue : UInt8) : Throws NSData := do
  owsRequire (offset < data.length)
  return data.set offset newValue

theorem setUint8At_eq_ok {data d : NSData} {offset : ℕ} {newValue : UInt8} :
    data.setUint8At offset newValue = .ok d ↔
      offset < data.length ∧ data.set offset newValue = d := by
  simp only [setUint8At, Throws.bind_eq_ok, owsRequire_eq_ok, Throws.pure_eq_ok]
  exact ⟨fun ⟨_, hoffset, hd⟩ => ⟨hoffset, hd⟩, fun ⟨hoffset, hd⟩ => ⟨⟨⟩, hoffset, hd⟩⟩

/-- Compares all bytes, whether or not an earlier pair differs. -/
def isEqualToDataTimingSafe (data other : NSData) : Bool :=
  other.length == data.length &&
    (data.zipWith (· == ·) other).foldl (· && ·) true

theorem foldl_and (bs : List Bool) (b : Bool) :
    bs.foldl (· && ·) b = (b && bs.all id) := by
  induction bs generalizing b with
  | nil => simp
  | cons b' bs ih => rw [List.foldl_cons, ih, List.all_cons, id_eq, Bool.and_assoc]

theorem isEqualToDataTimingSafe_iff {data other : NSData} :
    data.isEqualToDataTimingSafe other = true ↔ data = other := by
  rw [isEqualToDataTimingSafe, foldl_and, Bool.true_and, Bool.and_eq_true, beq_iff_eq]
  induction data generalizing other with
  | nil => cases other <;> simp
  | cons byte data ih =>
    cases other with
    | nil => simp
    | cons byte' other =>
      rw [List.zipWith_cons_cons, List.all_cons, List.length_cons, List.length_cons,
        Nat.succ_inj, List.cons.injEq, ← ih]
      simp only [id_eq, Bool.and_eq_true, beq_iff_eq]
      exact and_left_comm

end NSData
end SignalIOS
