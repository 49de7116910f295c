import Mathlib.Algebra.Ring.Int.Defs
import Mathlib.Algebra.Ring.Nat
import SignalIOS.Lib.Methods
import SignalIOS.Util.CryptoTools

/-! `EvpSymetricUtil`: messages are encrypted and decrypted by OpenSSL, into buffers on the stack
whose sizes are computed in 32 bits. -/
namespace SignalIOS.Crypto
open SignalIOS.Lib

/-- What ends a method early: an exception, the one that a failure of OpenSSL is reported by, or
an assertion. -/
inductive EvpException
  | raised (e : Exception)
  | opensslException
  | assertion
  deriving DecidableEq, Repr

/-- A cipher of OpenSSL. `none` is a failure, all else is written to the buffer. -/
structure EvpCipher where
  blockSize : Int32
  keyLength : ℕ
  ivLength : ℕ
  encryptUpdate : (key iv message : NSData) → Option NSData
  encryptFinal : (key iv message : NSData) → Option NSData
  decryptUpdate : (key iv cipherText : NSData) → Option NSData
  decryptFinal : (key iv cipherText : NSData) → Option NSData

/-- A buffer, and what has been written from its start on. -/
structure Buffer where
  bufferLength : Int32
  written : NSData

abbrev EvpMethod := Method EvpException Buffer

def requireArgument (condition : Prop) [Decidable condition] : EvpMethod Unit :=
  if condition then return () else throw (.raised .badArgument)

def assertConvertNSUIntegerToInt (value : ℕ) : EvpMethod Int32 :=
  if value ≤ 0x7FFFFFFF then return Int32.ofNat value else throw .assertion

def assertConvertIntToNSUInteger (value : Int32) : EvpMethod ℕ :=
  if 0 ≤ value then return value.toNatClampNeg else throw .assertion

/-- `RAISE_EXCEPTION_ON_FAILURE`, around a function that writes to the buffer. Its result is the
number of bytes that were written. -/
def raiseExceptionOnFailure (output : Option NSData) : EvpMethod Int32 :=
  match output with
  | none => throw .opensslException
  | some bytes => do
    modify fun buffer => { buffer with written := buffer.written ++ bytes }
    return Int32.ofNat bytes.length

def assertKeyAndIvLengthsAgainstCipher (cipher : EvpCipher) (key iv : NSData) : EvpMethod Unit := do
  requireArgument (key.length = cipher.keyLength)
  requireArgument (iv.length = cipher.ivLength)

/-- `dataWithBytes:length:` of the buffer, behind the check of its length. -/
def dataWithBuffer (bufferLength outputLength : Int32) : EvpMethod NSData := do
  requireArgument (outputLength ≤ bufferLength)
  let length ← assertConvertIntToNSUInteger outputLength
  return List.take length (← get).written

/-- Both directions, which differ in the size of the buffer and in the functions of OpenSSL. -/
def useCipher (cipher : EvpCipher) (bufferLength : Int32 → Int32)
    (update final : (key iv input : NSData) → Option NSData) (input key iv : NSData) :
    EvpMethod NSData := do
  assertKeyAndIvLengthsAgainstCipher cipher key iv
  let inputLength ← assertConvertNSUIntegerToInt input.length
  set { bufferLength := bufferLength inputLength, written := [] : Buffer }
  let outputLength ← raiseExceptionOnFailure (update key iv input)
  let paddingLength ← raiseExceptionOnFailure (final key iv input)
  dataWithBuffer (bufferLength inputLength) (outputLength + paddingLength)

def encryptMessage (cipher : EvpCipher) (message key iv : NSData) : EvpMethod NSData :=
  useCipher cipher (fun messageLength => messageLength + cipher.blockSize - 1) cipher.encryptUpdate
    cipher.encryptFinal message key iv

def decryptMessage (cipher : EvpCipher) (cipherText key iv : NSData) : EvpMethod NSData :=
  useCipher cipher (fun cipherTextLength => cipherTextLength + cipher.blockSize)
    cipher.decryptUpdate cipher.decryptFinal cipherText key iv

/-- Before there is a buffer. -/
def noBuffer : Buffer := ⟨0, []⟩

/-- What the method returns or raises. -/
def outcome (x : EvpMethod NSData) : Except EvpException NSData := (x.run.run noBuffer).1

/-- No byte is written past the end of the buffer. -/
def StaysInBuffer (x : EvpMethod NSData) : Prop :=
  ((x.run.run noBuffer).2.written.length : ℤ) ≤ (x.run.run noBuffer).2.bufferLength.toInt

/-- The bytes that a cipher writes, also where its second half fails. -/
def output (update final : Option NSData) : NSData :=
  match update with
  | none => []
  | some bytes => bytes ++ final.getD []

/-- What is documented of the ciphers in use: the sizes, how many bytes encryption writes, that
decryption writes no more than it reads, and that it undoes encryption. -/
structure IsAes128 (cipher : EvpCipher) (blockSize : ℕ) (outputLength : ℕ → ℕ) : Prop where
  blockSize : cipher.blockSize = Int32.ofNat blockSize
  keyLength : cipher.keyLength = 16
  ivLength : cipher.ivLength = 16
  encrypt : ∀ key iv message, key.length = 16 → iv.length = 16 →
    ∃ bytes lastBytes, cipher.encryptUpdate key iv message = some bytes ∧
      cipher.encryptFinal key iv message = some lastBytes ∧
      (bytes ++ lastBytes).length = outputLength message.length ∧
      ∃ plain lastPlain, cipher.decryptUpdate key iv (bytes ++ lastBytes) = some plain ∧
        cipher.decryptFinal key iv (bytes ++ lastBytes) = some lastPlain ∧
        plain ++ lastPlain = message
  decrypt : ∀ key iv cipherText, (output (cipher.decryptUpdate key iv cipherText)
    (cipher.decryptFinal key iv cipherText)).length ≤ cipherText.length

/-- `EVP_aes_128_cbc`, which pads. -/
abbrev IsAes128Cbc (cipher : EvpCipher) : Prop := IsAes128 cipher 16 fun m => (m / 16 + 1) * 16

/-- `EVP_aes_128_cfb128` and `EVP_aes_128_ctr`, which write as much as they read. -/
abbrev IsAes128Stream (cipher : EvpCipher) : Prop := IsAes128 cipher 1 id

section
variable {cipher : EvpCipher} {bufferLength : Int32 → Int32}
  {update final : (key iv input : NSData) → Option NSData} {input key iv : NSData}

theorem run_requireArgument {condition : Prop} [Decidable condition] (h : condition)
    (buffer : Buffer) : (requireArgument condition).run.run buffer = (.ok (), buffer) := by
  rw [requireArgument, if_pos h]
  rfl

theorem run_requireArgument_not {condition : Prop} [Decidable condition] (h : ¬ condition)
    (buffer : Buffer) :
    (requireArgument condition).run.run buffer = (.error (.raised .badArgument), buffer) := by
  rw [requireArgument, if_neg h]
  rfl

/-- A key or vector of a wrong length is refused. -/
theorem run_useCipher_refused (h : ¬ (key.length = cipher.keyLength ∧ iv.length = cipher.ivLength))
    (buffer : Buffer) :
    (useCipher cipher bufferLength update final input key iv).run.run buffer =
      (.error (.raised .badArgument), buffer) := by
  simp only [useCipher, assertKeyAndIvLengthsAgainstCipher, Method.run_bind]
  by_cases hkey : key.length = cipher.keyLength
  · have hiv : ¬ iv.length = cipher.ivLength := fun hiv => h ⟨hkey, hiv⟩
    simp only [run_requireArgument hkey, run_requireArgument_not hiv]
  · simp only [run_requireArgument_not hkey]

/-- So is an input whose length is not an `int`. -/
theorem run_useCipher_tooLong (hkey : key.length = cipher.keyLength)
    (hiv : iv.length = cipher.ivLength) (hlong : 2 ^ 31 ≤ input.length) (buffer : Buffer) :
    (useCipher cipher bufferLength update final input key iv).run.run buffer =
      (.error .assertion, buffer) := by
  simp only [useCipher, assertKeyAndIvLengthsAgainstCipher, Method.run_bind,
    run_requireArgument hkey, run_requireArgument hiv, assertConvertNSUIntegerToInt]
  rw [if_neg (by omega)]
  rfl

theorem run_raiseExceptionOnFailure (bytes : NSData) (buffer : Buffer) :
    (raiseExceptionOnFailure (some bytes)).run.run buffer =
      (.ok (Int32.ofNat bytes.length), { buffer with written := buffer.written ++ bytes }) := rfl

theorem run_dataWithBuffer (bufferLength outputLength : Int32) (buffer : Buffer) :
    ((dataWithBuffer bufferLength outputLength).run.run buffer).2 = buffer := by
  rw [dataWithBuffer, Method.run_bind]
  by_cases hfits : outputLength ≤ bufferLength
  · simp only [run_requireArgument hfits, Method.run_bind, assertConvertIntToNSUInteger]
    split_ifs <;> rfl
  · rw [run_requireArgument_not hfits]

/-- Where the whole of the buffer is used, it is what is returned. -/
theorem run_dataWithBuffer_ok {bufferLength : Int32} {buffer : Buffer} {n n' : ℕ}
    (hlength : buffer.written.length = n + n') (hfits : ((n + n' : ℕ) : ℤ) ≤ bufferLength.toInt) :
    ((dataWithBuffer bufferLength (Int32.ofNat n + Int32.ofNat n')).run.run buffer).1 =
      .ok buffer.written := by
  have hmax : bufferLength.toInt < 2 ^ 31 := bufferLength.toInt_lt
  have hsum : Int32.ofNat n + Int32.ofNat n' = Int32.ofNat (n + n') := (Int32.ofNat_add n n').symm
  have hvalue : (Int32.ofNat (n + n')).toInt = ((n + n' : ℕ) : ℤ) :=
    Int32.toInt_ofNat_of_lt (by omega)
  have hle : Int32.ofNat (n + n') ≤ bufferLength := by
    rw [Int32.le_iff_toInt_le, hvalue]
    exact hfits
  have hpos : 0 ≤ Int32.ofNat (n + n') := by
    have hzero : (0 : Int32).toInt = 0 := rfl
    rw [Int32.le_iff_toInt_le, hvalue, hzero]
    omega
  have hclamp : (Int32.ofNat (n + n')).toNatClampNeg = n + n' :=
    Int32.toNatClampNeg_ofNat_of_lt (by omega)
  rw [hsum, dataWithBuffer]
  simp only [Method.run_bind, run_requireArgument hle, assertConvertIntToNSUInteger, if_pos hpos,
    Method.run_pure, Method.run_get, hclamp]
  rw [List.take_of_length_le (by omega)]

/-- What is in the buffer in the end, of the size that was computed for it. -/
theorem run_useCipher_buffer (hkey : key.length = cipher.keyLength)
    (hiv : iv.length = cipher.ivLength) (hshort : input.length < 2 ^ 31) (buffer : Buffer) :
    ((useCipher cipher bufferLength update final input key iv).run.run buffer).2 =
      ⟨bufferLength (Int32.ofNat input.length), output (update key iv input) (final key iv input)⟩ := by
  have hlength : input.length ≤ 0x7FFFFFFF := by omega
  simp only [useCipher, assertKeyAndIvLengthsAgainstCipher, Method.run_bind,
    run_requireArgument hkey, run_requireArgument hiv, assertConvertNSUIntegerToInt,
    if_pos hlength, Method.run_pure, Method.run_set]
  cases hupdate : update key iv input with
  | none => rfl
  | some bytes =>
    simp only [run_raiseExceptionOnFailure]
    cases hfinal : final key iv input with
    | none => simp [output, raiseExceptionOnFailure]; rfl
    | some lastBytes =>
      simp only [run_raiseExceptionOnFailure]
      exact run_dataWithBuffer _ _ _

/-- What is done with the output of a cipher. -/
theorem run_useCipher_output (hkey : key.length = cipher.keyLength)
    (hiv : iv.length = cipher.ivLength) (hshort : input.length < 2 ^ 31) {bytes lastBytes : NSData}
    (hupdate : update key iv input = some bytes) (hfinal : final key iv input = some lastBytes)
    (buffer : Buffer) :
    (useCipher cipher bufferLength update final input key iv).run.run buffer =
      (dataWithBuffer (bufferLength (Int32.ofNat input.length))
        (Int32.ofNat bytes.length + Int32.ofNat lastBytes.length)).run.run
          ⟨bufferLength (Int32.ofNat input.length), bytes ++ lastBytes⟩ := by
  have hlength : input.length ≤ 0x7FFFFFFF := by omega
  simp only [useCipher, assertKeyAndIvLengthsAgainstCipher, Method.run_bind,
    run_requireArgument hkey, run_requireArgument hiv, assertConvertNSUIntegerToInt,
    if_pos hlength, Method.run_pure, Method.run_set, hupdate, hfinal, run_raiseExceptionOnFailure,
    List.nil_append]

/-- All the output is returned where the buffer has room for it. -/
theorem run_useCipher_ok (hkey : key.length = cipher.keyLength)
    (hiv : iv.length = cipher.ivLength) (hshort : input.length < 2 ^ 31) {bytes lastBytes : NSData}
    (hupdate : update key iv input = some bytes) (hfinal : final key iv input = some lastBytes)
    (hfits : ((bytes ++ lastBytes).length : ℤ) ≤
      (bufferLength (Int32.ofNat input.length)).toInt) (buffer : Buffer) :
    ((useCipher cipher bufferLength update final input key iv).run.run buffer).1 =
      .ok (bytes ++ lastBytes) := by
  rw [List.length_append] at hfits
  rw [run_useCipher_output hkey hiv hshort hupdate hfinal]
  exact run_dataWithBuffer_ok (by simp) hfits

/-- A failure of OpenSSL, before or in the last block. -/
theorem run_useCipher_failed (hkey : key.length = cipher.keyLength)
    (hiv : iv.length = cipher.ivLength) (hshort : input.length < 2 ^ 31)
    (hfailed : update key iv input = none ∨ final key iv input = none) (buffer : Buffer) :
    ((useCipher cipher bufferLength update final input key iv).run.run buffer).1 =
      .error .opensslException := by
  have hlength : input.length ≤ 0x7FFFFFFF := by omega
  simp only [useCipher, assertKeyAndIvLengthsAgainstCipher, Method.run_bind,
    run_requireArgument hkey, run_requireArgument hiv, assertConvertNSUIntegerToInt,
    if_pos hlength, Method.run_pure, Method.run_set]
  cases hupdate : update key iv input with
  | none => rfl
  | some bytes =>
    rw [hfailed.resolve_left (by rw [hupdate]; exact Option.some_ne_none _)]
    rfl

/-- Output of a length that is more than the buffer's is not returned. -/
theorem run_dataWithBuffer_refused {bufferLength outputLength : Int32}
    (h : bufferLength.toInt < outputLength.toInt) (buffer : Buffer) :
    ((dataWithBuffer bufferLength outputLength).run.run buffer).1 =
      .error (.raised .badArgument) := by
  have hmore : ¬ outputLength ≤ bufferLength := by
    rw [Int32.le_iff_toInt_le]
    omega
  rw [dataWithBuffer, Method.run_bind, run_requireArgument_not hmore]

/-- A buffer is large enough just where the key is refused, the input is too long for any buffer,
or the size that was computed is that of the output or a larger one. -/
theorem staysInBuffer_useCipher :
    StaysInBuffer (useCipher cipher bufferLength update final input key iv) ↔
      ¬ (key.length = cipher.keyLength ∧ iv.length = cipher.ivLength) ∨ 2 ^ 31 ≤ input.length ∨
        ((output (update key iv input) (final key iv input)).length : ℤ) ≤
          (bufferLength (Int32.ofNat input.length)).toInt := by
  unfold StaysInBuffer
  by_cases hlengths : key.length = cipher.keyLength ∧ iv.length = cipher.ivLength
  · by_cases hlong : 2 ^ 31 ≤ input.length
    · rw [run_useCipher_tooLong hlengths.1 hlengths.2 hlong]
      exact iff_of_true (Int.le_refl _) (.inr (.inl hlong))
    · rw [run_useCipher_buffer hlengths.1 hlengths.2 (by omega)]
      simp only [hlengths, hlong, not_true_eq_false, false_or, and_self]
  · rw [run_useCipher_refused hlengths]
    exact iff_of_true (Int.le_refl _) (.inl hlengths)

end

section
variable {cipher : EvpCipher} {blockSize : ℕ} {outputLength : ℕ → ℕ} {message key iv : NSData}

/-- A sum of two lengths, in 32 bits. -/
theorem toInt_add_ofNat {n b : ℕ} (hn : n < 2 ^ 31) (hb : b ≤ 16) :
    (Int32.ofNat n + Int32.ofNat b).toInt =
      if n + b < 2 ^ 31 then (n : ℤ) + b else (n : ℤ) + b - 2 ^ 32 := by
  have hleft : (Int32.ofNat n).toInt = n := Int32.toInt_ofNat_of_lt hn
  have hright : (Int32.ofNat b).toInt = b := Int32.toInt_ofNat_of_lt (by omega)
  rw [Int32.toInt_add, hleft, hright, Int.bmod_def]
  split_ifs <;> omega

/-- The same for the sum that is less by one. -/
theorem toInt_add_ofNat_sub_one {n b : ℕ} (hn : n < 2 ^ 31) (h0 : 0 < b) (hb : b ≤ 16) :
    (Int32.ofNat n + Int32.ofNat b - 1).toInt =
      if n + b ≤ 2 ^ 31 then (n : ℤ) + b - 1 else (n : ℤ) + b - 1 - 2 ^ 32 := by
  have hone : (1 : Int32).toInt = 1 := rfl
  rw [Int32.toInt_sub, toInt_add_ofNat hn hb, hone, Int.bmod_def]
  split_ifs <;> omega

/-- The key or the vector is refused for its length. -/
def RefusesKey (key iv : NSData) : Prop := ¬ (key.length = 16 ∧ iv.length = 16)

theorem IsAes128.refusesKey (h : IsAes128 cipher blockSize outputLength) :
    ¬ (key.length = cipher.keyLength ∧ iv.length = cipher.ivLength) ↔ RefusesKey key iv := by
  rw [h.keyLength, h.ivLength]
  rfl

/-- Decryption stays in its buffer where the size of it is not too large to be an `int`. -/
theorem IsAes128.staysInBuffer_decryptMessage (h : IsAes128 cipher blockSize outputLength)
    (hblock : blockSize ≤ 16) (cipherText : NSData) :
    StaysInBuffer (decryptMessage cipher cipherText key iv) ↔
      RefusesKey key iv ∨ 2 ^ 31 ≤ cipherText.length ∨ cipherText.length + blockSize < 2 ^ 31 := by
  rw [decryptMessage, staysInBuffer_useCipher, h.refusesKey]
  have hwritten := h.decrypt key iv cipherText
  by_cases hlong : 2 ^ 31 ≤ cipherText.length
  · simp only [hlong, true_or, or_true]
  · have hsize := toInt_add_ofNat (n := cipherText.length) (by omega) hblock
    rw [h.blockSize, hsize]
    split_ifs with hsum
    · simp only [hsum, or_true, iff_true]
      right
      right
      omega
    · simp only [hlong, hsum, or_false, false_or]
      apply or_iff_left
      omega

/-- What decryption returns, and that else it does not raise `OperationFailed`: the key, the vector
or the length is refused, or OpenSSL fails. -/
theorem IsAes128.outcome_decryptMessage (h : IsAes128 cipher blockSize outputLength)
    (hblock : blockSize ≤ 16) (cipherText : NSData) :
    (∃ bytes lastBytes, ¬ RefusesKey key iv ∧ cipherText.length + blockSize < 2 ^ 31 ∧
      cipher.decryptUpdate key iv cipherText = some bytes ∧
      cipher.decryptFinal key iv cipherText = some lastBytes ∧
      outcome (decryptMessage cipher cipherText key iv) = .ok (bytes ++ lastBytes)) ∨
    ((RefusesKey key iv ∨ 2 ^ 31 ≤ cipherText.length + blockSize ∨
        cipher.decryptUpdate key iv cipherText = none ∨
        cipher.decryptFinal key iv cipherText = none) ∧
      ∃ e, outcome (decryptMessage cipher cipherText key iv) = .error e ∧
        ∀ description, e ≠ .raised (.operationFailed description)) := by
  by_cases hrefused : RefusesKey key iv
  · right
    refine ⟨.inl hrefused, .raised .badArgument, ?_, fun _ he => by cases he⟩
    exact congrArg Prod.fst (run_useCipher_refused (h.refusesKey.mpr hrefused) noBuffer)
  obtain ⟨hkey, hiv⟩ := not_not.mp hrefused
  rw [← h.keyLength] at hkey
  rw [← h.ivLength] at hiv
  by_cases hlong : 2 ^ 31 ≤ cipherText.length
  · right
    refine ⟨.inr (.inl (by omega)), .assertion, ?_, fun _ he => by cases he⟩
    exact congrArg Prod.fst (run_useCipher_tooLong hkey hiv hlong noBuffer)
  have hsize := toInt_add_ofNat (n := cipherText.length) (by omega) hblock
  cases hupdate : cipher.decryptUpdate key iv cipherText with
  | none =>
    right
    refine ⟨.inr (.inr (.inl rfl)), .opensslException, ?_, fun _ he => by cases he⟩
    exact run_useCipher_failed hkey hiv (by omega) (.inl hupdate) noBuffer
  | some bytes =>
    cases hfinal : cipher.decryptFinal key iv cipherText with
    | none =>
      right
      refine ⟨.inr (.inr (.inr rfl)), .opensslException, ?_, fun _ he => by cases he⟩
      exact run_useCipher_failed hkey hiv (by omega) (.inr hfinal) noBuffer
    | some lastBytes =>
      have hless := h.decrypt key iv cipherText
      have houtput : output (some bytes) (some lastBytes) = bytes ++ lastBytes := rfl
      rw [hupdate, hfinal, houtput, List.length_append] at hless
      by_cases hroom : cipherText.length + blockSize < 2 ^ 31
      · left
        refine ⟨bytes, lastBytes, hrefused, hroom, rfl, rfl, ?_⟩
        apply run_useCipher_ok hkey hiv (by omega) hupdate hfinal
        rw [List.length_append, h.blockSize, hsize, if_pos hroom]
        omega
      · right
        refine ⟨.inr (.inl (by omega)), .raised .badArgument, ?_, fun _ he => by cases he⟩
        have hsum : Int32.ofNat bytes.length + Int32.ofNat lastBytes.length =
            Int32.ofNat (bytes.length + lastBytes.length) := (Int32.ofNat_add _ _).symm
        have hvalue : (Int32.ofNat (bytes.length + lastBytes.length)).toInt =
            ((bytes.length + lastBytes.length : ℕ) : ℤ) := Int32.toInt_ofNat_of_lt (by omega)
        rw [outcome, decryptMessage, run_useCipher_output hkey hiv (by omega) hupdate hfinal]
        apply run_dataWithBuffer_refused
        rw [hsum, hvalue, h.blockSize, hsize, if_neg hroom]
        omega

theorem IsAes128.staysInBuffer_encryptMessage (h : IsAes128 cipher blockSize outputLength)
    (h0 : 0 < blockSize) (hblock : blockSize ≤ 16) :
    StaysInBuffer (encryptMessage cipher message key iv) ↔
      RefusesKey key iv ∨ 2 ^ 31 ≤ message.length ∨
        outputLength message.length + 1 ≤ message.length + blockSize ∧
          message.length + blockSize ≤ 2 ^ 31 := by
  rw [encryptMessage, staysInBuffer_useCipher, h.refusesKey]
  by_cases hrefused : RefusesKey key iv
  · simp only [hrefused, true_or]
  · by_cases hlong : 2 ^ 31 ≤ message.length
    · simp only [hlong, true_or, or_true]
    · obtain ⟨hkey, hiv⟩ := not_not.mp hrefused
      obtain ⟨bytes, lastBytes, hupdate, hfinal, hlength, -⟩ := h.encrypt key iv message hkey hiv
      have hsize := toInt_add_ofNat_sub_one (n := message.length) (by omega) h0 hblock
      have houtput : output (some bytes) (some lastBytes) = bytes ++ lastBytes := rfl
      rw [hupdate, hfinal, houtput, hlength, h.blockSize, hsize]
      simp only [hrefused, hlong, false_or]
      split_ifs with hsum <;> omega

/-- A message that the buffers are large enough for is encrypted, and decrypted again. -/
theorem IsAes128.outcome_encryptMessage (h : IsAes128 cipher blockSize outputLength)
    (h0 : 0 < blockSize) (hblock : blockSize ≤ 16) (haccepted : ¬ RefusesKey key iv)
    (hfits : outputLength message.length + 1 ≤ message.length + blockSize)
    (hsum : message.length + blockSize ≤ 2 ^ 31) :
    ∃ cipherText, outcome (encryptMessage cipher message key iv) = .ok cipherText ∧
      cipherText.length = outputLength message.length ∧
      (cipherText.length + blockSize < 2 ^ 31 →
        outcome (decryptMessage cipher cipherText key iv) = .ok message) := by
  obtain ⟨hkey, hiv⟩ := not_not.mp haccepted
  obtain ⟨bytes, lastBytes, hupdate, hfinal, hlength, plain, lastPlain, hplain, hlastPlain, hinverse⟩ :=
    h.encrypt key iv message hkey hiv
  have hshort : message.length < 2 ^ 31 := by omega
  rw [← h.keyLength] at hkey
  rw [← h.ivLength] at hiv
  refine ⟨bytes ++ lastBytes, ?_, hlength, ?_⟩
  · apply run_useCipher_ok hkey hiv hshort hupdate hfinal
    rw [hlength, h.blockSize, toInt_add_ofNat_sub_one hshort h0 hblock, if_pos hsum]
    omega
  · intro hroom
    have hless := h.decrypt key iv (bytes ++ lastBytes)
    have houtput : output (some plain) (some lastPlain) = message := hinverse
    rw [hplain, hlastPlain, houtput] at hless
    have hok : outcome (decryptMessage cipher (bytes ++ lastBytes) key iv) =
        .ok (plain ++ lastPlain) := by
      apply run_useCipher_ok hkey hiv (by omega) hplain hlastPlain
      rw [hinverse, h.blockSize, toInt_add_ofNat (by omega) hblock, if_pos hroom]
      omega
    rw [hok, hinverse]

/-- What is expected of a message: it is encrypted within the buffer, and decrypted within one to
what it was. -/
structure RoundTrips (cipher : EvpCipher) (message key iv : NSData) : Prop where
  encryption : StaysInBuffer (encryptMessage cipher message key iv)
  returns : ¬ RefusesKey key iv → message.length < 2 ^ 31 →
    ∃ cipherText, outcome (encryptMessage cipher message key iv) = .ok cipherText
  decryption : ∀ cipherText, outcome (encryptMessage cipher message key iv) = .ok cipherText →
    StaysInBuffer (decryptMessage cipher cipherText key iv)
  inverts : ∀ cipherText, outcome (encryptMessage cipher message key iv) = .ok cipherText →
    outcome (decryptMessage cipher cipherText key iv) = .ok message

/-- A message that is not encrypted has nothing to be decrypted. -/
theorem roundTrips_of_error {e : EvpException}
    (hencryption : StaysInBuffer (encryptMessage cipher message key iv))
    (hrefused : RefusesKey key iv ∨ 2 ^ 31 ≤ message.length)
    (herror : outcome (encryptMessage cipher message key iv) = .error e) :
    RoundTrips cipher message key iv where
  encryption := hencryption
  returns haccepted hshort := by
    rcases hrefused with hkey | hlong
    · exact absurd hkey haccepted
    · exact absurd hshort (Nat.not_lt.mpr hlong)
  decryption cipherText hok := by cases herror.symm.trans hok
  inverts cipherText hok := by cases herror.symm.trans hok

/-- A message round trips just where it is refused, or all three lengths fit: the output in its
buffer, and the sizes of both buffers in an `int`. -/
theorem IsAes128.roundTrips (h : IsAes128 cipher blockSize outputLength)
    (h0 : 0 < blockSize) (hblock : blockSize ≤ 16) :
    RoundTrips cipher message key iv ↔
      RefusesKey key iv ∨ 2 ^ 31 ≤ message.length ∨
        outputLength message.length + 1 ≤ message.length + blockSize ∧
          message.length + blockSize ≤ 2 ^ 31 ∧
            outputLength message.length + blockSize < 2 ^ 31 := by
  constructor
  · intro hround
    by_cases hrefused : RefusesKey key iv
    · exact .inl hrefused
    · rcases (h.staysInBuffer_encryptMessage h0 hblock).mp hround.encryption with
        hkey | hlong | ⟨hfits, hsum⟩
      · exact .inl hkey
      · exact .inr (.inl hlong)
      · obtain ⟨cipherText, hok, hlength, -⟩ :=
          h.outcome_encryptMessage h0 hblock hrefused hfits hsum
        have hdecryption := hround.decryption cipherText hok
        rw [h.staysInBuffer_decryptMessage hblock] at hdecryption
        rcases hdecryption with hkey | hlong | hroom
        · exact .inl hkey
        · omega
        · exact .inr (.inr ⟨hfits, hsum, hlength ▸ hroom⟩)
  · intro hcondition
    have hencryption : StaysInBuffer (encryptMessage cipher message key iv) := by
      rw [h.staysInBuffer_encryptMessage h0 hblock]
      rcases hcondition with hkey | hlong | ⟨hfits, hsum, -⟩
      · exact .inl hkey
      · exact .inr (.inl hlong)
      · exact .inr (.inr ⟨hfits, hsum⟩)
    by_cases hrefused : RefusesKey key iv
    · have herror : outcome (encryptMessage cipher message key iv) =
          .error (.raised .badArgument) :=
        congrArg Prod.fst (run_useCipher_refused (h.refusesKey.mpr hrefused) noBuffer)
      exact roundTrips_of_error hencryption (.inl hrefused) herror
    · by_cases hlong : 2 ^ 31 ≤ message.length
      · obtain ⟨hkey, hiv⟩ := not_not.mp hrefused
        have herror : outcome (encryptMessage cipher message key iv) = .error .assertion :=
          congrArg Prod.fst (run_useCipher_tooLong (h.keyLength.symm ▸ hkey)
            (h.ivLength.symm ▸ hiv) hlong noBuffer)
        exact roundTrips_of_error hencryption (.inr hlong) herror
      · obtain ⟨hfits, hsum, hroom⟩ := (hcondition.resolve_left hrefused).resolve_left hlong
        obtain ⟨cipherText, hok, hlength, hdecrypts⟩ :=
          h.outcome_encryptMessage h0 hblock hrefused hfits hsum
        refine ⟨hencryption, fun _ _ => ⟨cipherText, hok⟩, ?_, ?_⟩
        · intro cipherText' hok'
          obtain rfl := Except.ok.inj (hok.symm.trans hok')
          exact (h.staysInBuffer_decryptMessage hblock cipherText).mpr
            (.inr (.inr (hlength ▸ hroom)))
        · intro cipherText' hok'
          obtain rfl := Except.ok.inj (hok.symm.trans hok')
          exact hdecrypts (hlength ▸ hroom)

/-- Exactly when messages round trip, and decryption stays in its buffer. With padding, messages
of whole blocks do not, as their output has one byte more than the buffer. -/
theorem evpSymetricUtil_spec {cbc stream : EvpCipher} (hcbc : IsAes128Cbc cbc)
    (hstream : IsAes128Stream stream) (key iv : NSData) :
    (∀ message, RoundTrips cbc message key iv ↔
      RefusesKey key iv ∨ 2 ^ 31 ≤ message.length ∨
        message.length % 16 ≠ 0 ∧ message.length + 32 < 2 ^ 31) ∧
    (∀ message, RoundTrips stream message key iv ↔
      RefusesKey key iv ∨ 2 ^ 31 ≤ message.length ∨ message.length + 1 < 2 ^ 31) ∧
    (∀ cipherText, StaysInBuffer (decryptMessage cbc cipherText key iv) ↔
      RefusesKey key iv ∨ 2 ^ 31 ≤ cipherText.length ∨ cipherText.length + 16 < 2 ^ 31) ∧
    ∀ cipherText, StaysInBuffer (decryptMessage stream cipherText key iv) ↔
      RefusesKey key iv ∨ 2 ^ 31 ≤ cipherText.length ∨ cipherText.length + 1 < 2 ^ 31 := by
  refine ⟨?_, ?_, ?_, ?_⟩
  · intro message
    rw [hcbc.roundTrips (by decide) (by decide)]
    apply or_congr_right
    apply or_congr_right
    omega
  · intro message
    rw [hstream.roundTrips (by decide) (by decide)]
    simp only [id]
    apply or_congr_right
    apply or_congr_right
    omega
  · exact fun cipherText => hcbc.staysInBuffer_decryptMessage (by decide) cipherText
  · exact fun cipherText => hstream.staysInBuffer_decryptMessage (by decide) cipherText

end

section Stream
variable {encrypt decrypt : (key iv message : NSData) → NSData} {message key iv : NSData}

/-- A stream cipher by the functions of its two directions. -/
def streamCipher (encrypt decrypt : (key iv message : NSData) → NSData) : EvpCipher where
  blockSize := 1
  keyLength := aes128KeyLength
  ivLength := aesIvLength
  encryptUpdate key iv message := some (encrypt key iv message)
  encryptFinal _ _ _ := some []
  decryptUpdate key iv cipherText := some (decrypt key iv cipherText)
  decryptFinal _ _ _ := some []

/-- Messages whose length is an `int` are encrypted as by the function alone. -/
theorem outcome_encryptMessage_streamCipher (h : IsAes128Stream (streamCipher encrypt decrypt))
    (hshort : message.length < 2 ^ 31) :
    outcome (encryptMessage (streamCipher encrypt decrypt) message key iv) =
      (NSData.usingCipher encrypt message key iv).mapError .raised := by
  by_cases hrefused : RefusesKey key iv
  · have herror : outcome (encryptMessage (streamCipher encrypt decrypt) message key iv) =
        .error (.raised .badArgument) :=
      congrArg Prod.fst (run_useCipher_refused (h.refusesKey.mpr hrefused) noBuffer)
    rw [herror]
    by_cases hkey : key.length = aes128KeyLength
    · have hiv : ¬ iv.length = aesIvLength := fun hiv => hrefused ⟨hkey, hiv⟩
      simp only [NSData.usingCipher, owsRequire, if_pos hkey, if_neg hiv]
      rfl
    · simp only [NSData.usingCipher, owsRequire, if_neg hkey]
      rfl
  · obtain ⟨hkey, hiv⟩ := not_not.mp hrefused
    obtain ⟨bytes, lastBytes, hupdate, hfinal, hlength, -⟩ := h.encrypt key iv message hkey hiv
    have hbytes : encrypt key iv message = bytes := Option.some.inj hupdate
    have hlast : [] = lastBytes := Option.some.inj hfinal
    have hsize := toInt_add_ofNat_sub_one (b := 1) hshort (by decide) (by decide)
    have hok : outcome (encryptMessage (streamCipher encrypt decrypt) message key iv) =
        .ok (bytes ++ lastBytes) := by
      apply run_useCipher_ok hkey hiv hshort hupdate hfinal
      rw [hlength, h.blockSize, hsize, if_pos (by omega), id]
      omega
    rw [hok, NSData.usingCipher_eq_ok encrypt message hkey hiv, ← hlast, List.append_nil, hbytes]
    rfl

end Stream

section Sample

/-- A cipher that only pads. -/
def paddingCipher : EvpCipher where
  blockSize := 16
  keyLength := 16
  ivLength := 16
  encryptUpdate _ _ message := some (List.take (message.length / 16 * 16) message)
  encryptFinal _ _ message := some (List.drop (message.length / 16 * 16) message ++
    List.replicate (16 - message.length % 16) (UInt8.ofNat (16 - message.length % 16)))
  decryptUpdate _ _ cipherText := some (List.take (cipherText.length - 16) cipherText)
  decryptFinal _ _ cipherText := cipherText.getLast?.map fun count =>
    List.take (16 - count.toNat) (List.drop (cipherText.length - 16) cipherText)

/-- A cipher that changes nothing. -/
def copyingCipher : EvpCipher where
  blockSize := 1
  keyLength := 16
  ivLength := 16
  encryptUpdate _ _ message := some message
  encryptFinal _ _ _ := some []
  decryptUpdate _ _ cipherText := some cipherText
  decryptFinal _ _ _ := some []

theorem isAes128Cbc_paddingCipher : IsAes128Cbc paddingCipher := by
  refine ⟨rfl, rfl, rfl, ?_, ?_⟩
  · intro key iv message _ _
    let count := 16 - message.length % 16
    let cipherText := message ++ List.replicate count (UInt8.ofNat count)
    have hjoined : List.take (message.length / 16 * 16) message ++
        (List.drop (message.length / 16 * 16) message ++
          List.replicate count (UInt8.ofNat count)) = cipherText := by
      rw [← List.append_assoc, List.take_append_drop]
    have hlength : cipherText.length = (message.length / 16 + 1) * 16 := by
      rw [List.length_append, List.length_replicate]
      omega
    have hstart : cipherText.length - 16 = message.length / 16 * 16 := by omega
    have hlast : cipherText.getLast? = some (UInt8.ofNat count) := by
      have hcount : count = count - 1 + 1 := by omega
      rw [List.getLast?_append, hcount, List.replicate_succ', List.getLast?_append]
      rfl
    have hvalue : 16 - (UInt8.ofNat count).toNat = message.length % 16 := by
      have hbyte : (UInt8.ofNat count).toNat = count := Nat.mod_eq_of_lt (by omega)
      omega
    refine ⟨_, _, rfl, rfl, ?_, List.take (message.length / 16 * 16) message,
      List.drop (message.length / 16 * 16) message, ?_, ?_, List.take_append_drop _ _⟩
    · rw [hjoined]
      exact hlength
    · rw [hjoined]
      have htake : List.take (cipherText.length - 16) cipherText =
          List.take (message.length / 16 * 16) message := by
        rw [hstart, List.take_append_of_le_length (by omega)]
      exact congrArg some htake
    · rw [hjoined]
      have hdrop : List.take (16 - (UInt8.ofNat count).toNat)
          (List.drop (cipherText.length - 16) cipherText) =
            List.drop (message.length / 16 * 16) message := by
        rw [hstart, hvalue, List.drop_append_of_le_length (by omega)]
        apply List.take_left'
        rw [List.length_drop]
        omega
      have hfinal : paddingCipher.decryptFinal key iv cipherText = some (List.take
          (16 - (UInt8.ofNat count).toNat) (List.drop (cipherText.length - 16) cipherText)) :=
        congrArg (Option.map _) hlast
      rw [hfinal, hdrop]
  · intro key iv cipherText
    have hupdate : (List.take (cipherText.length - 16) cipherText).length ≤
        cipherText.length - 16 := List.length_take_le _ _
    have hfinal : ((paddingCipher.decryptFinal key iv cipherText).getD []).length ≤
        cipherText.length - (cipherText.length - 16) := by
      have hlast : paddingCipher.decryptFinal key iv cipherText = cipherText.getLast?.map fun count =>
        List.take (16 - count.toNat) (List.drop (cipherText.length - 16) cipherText) := rfl
      rw [hlast]
      cases cipherText.getLast? with
      | none => exact Nat.zero_le _
      | some count =>
        have hless := List.length_take_le' (16 - count.toNat)
          (List.drop (cipherText.length - 16) cipherText)
        rwa [List.length_drop] at hless
    have houtput : output (paddingCipher.decryptUpdate key iv cipherText)
        (paddingCipher.decryptFinal key iv cipherText) =
          List.take (cipherText.length - 16) cipherText ++
            (paddingCipher.decryptFinal key iv cipherText).getD [] := rfl
    rw [houtput, List.length_append]
    omega

theorem isAes128Stream_copyingCipher : IsAes128Stream copyingCipher := by
  refine ⟨rfl, rfl, rfl, ?_, ?_⟩
  · intro key iv message _ _
    have hsame : message ++ [] = message := List.append_nil message
    exact ⟨message, [], rfl, rfl, congrArg List.length hsame, message ++ [], [], rfl, rfl, by simp⟩
  · intro key iv cipherText
    exact Nat.le_of_eq (congrArg List.length (List.append_nil cipherText))

/-- One byte round trips. -/
theorem evpSymetricUtil_spec_sample :
    IsAes128Cbc paddingCipher ∧ IsAes128Stream copyingCipher ∧
      RoundTrips paddingCipher [7] (List.replicate 16 0) (List.replicate 16 0) :=
  ⟨isAes128Cbc_paddingCipher, isAes128Stream_copyingCipher,
    ((evpSymetricUtil_spec isAes128Cbc_paddingCipher isAes128Stream_copyingCipher _ _).1 [7]).mpr
      (.inr (.inr (by decide)))⟩

/-- The sixteen bytes for an empty message do not fit in a buffer of fifteen. -/
theorem encryptMessage_overflows :
    ¬ ∀ cipher, IsAes128Cbc cipher → ∀ message key iv, RoundTrips cipher message key iv := by
  intro h
  have hround := h _ isAes128Cbc_paddingCipher [] (List.replicate 16 0) (List.replicate 16 0)
  have hstays := (isAes128Cbc_paddingCipher.staysInBuffer_encryptMessage (by decide)
    (by decide)).mp hround.encryption
  rcases hstays with hrefused | hlong | ⟨hfits, -⟩
  · exact hrefused (by decide)
  · exact absurd hlong (by decide)
  · exact absurd hfits (by decide)

end Sample

end SignalIOS.Crypto
