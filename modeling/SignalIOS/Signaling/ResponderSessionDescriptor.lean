import Mathlib.Algebra.Ring.Nat
import SignalIOS.Crypto.EvpSymetricUtil
import SignalIOS.Util.Base64Decoding

/-! `ResponderSessionDescriptor`: what is read from an encrypted remote notification of a call, and
which exceptions the notification can raise. -/
namespace SignalIOS.Signaling
open SignalIOS.Crypto

/-- What parsing a notification ends with early: an exception of this repository, one of OpenSSL or
an assertion, a message that an object of another class does not understand, or data that is not a
message of the protocol buffer. -/
inductive NotificationException
  | raised (e : Exception)
  | opensslException
  | assertion
  | unrecognizedSelector
  | invalidProtocolBuffer
  deriving DecidableEq, Repr

abbrev Parses := Except NotificationException

def NotificationException.ofEvp : EvpException → NotificationException
  | .raised e => .raised e
  | .opensslException => .opensslException
  | .assertion => .assertion

/-- A function of this repository is called. -/
def raising {α : Type} (x : Throws α) : Parses α := x.mapError .raised

/-- An object of a dictionary: a string, or one of another class. -/
inductive PropertyValue
  | string (text : CodeUnits)
  | other

/-- A dictionary, by the objects of its keys. -/
abbrev NSDictionary := NSString → Option PropertyValue

structure PhoneNumber where
  toE164 : NSString
  deriving DecidableEq

/-- The message of the protocol buffer. A string that is not UTF8 is `nil`. -/
structure InitiateSignal where
  initiator : Option NSString
  sessionId : UInt64
  port : UInt32
  serverName : Option NSString
  version : UInt32

/-- What is outside: the cipher of OpenSSL, the parser of protocol buffers and the one of phone
numbers. -/
class SignalingTools where
  evpAes128Cbc : EvpCipher
  parseInitiateSignal : NSData → Option InitiateSignal
  phoneNumberFromE164 : NSString → Throws (Option PhoneNumber)

/-- The keys, as far as they are stored. -/
structure SignalKeyingStorage where
  signalingCipherKey : Option NSData
  signalingMacKey : Option NSData

structure ResponderSessionDescriptor where
  interopVersion : ℕ
  relayUdpPort : UInt16
  sessionId : Int64
  relayServerName : NSString
  initiatorNumber : PhoneNumber
  deriving DecidableEq

def messagePropertyKey : NSString := "m".toList

def versionSize : ℕ := 1

def ivSize : ℕ := 16

def hmacTruncatedSize : ℕ := 10

def expectedRemoteNotifFormatVersion : UInt8 := 0

def maxSupportedInteropVersion : UInt32 := 1

/-- `checkOperation(object != nil)`, for an object that is used afterwards. -/
def checkNotNil {α : Type} : Option α → Throws α
  | none => .error (.operationFailed none)
  | some object => .ok object

/-- `decodedAsBase64Data`, sent to an object that should be a string. -/
def PropertyValue.decodedAsBase64Data : PropertyValue → Parses NSData
  | .string text => raising text.decodedAsBase64Data
  | .other => .error .unrecognizedSelector

section
variable [CryptoTools] [SignalingTools]

def verifyAndRemoveMacFromRemoteNotifcationData (keys : SignalKeyingStorage) (data : NSData) :
    Throws NSData := do
  checkOperation (data.length ≥ hmacTruncatedSize)
  let includedMac ← data.takeLast hmacTruncatedSize
  let payload ← data.skipLast hmacTruncatedSize
  let signalingMacKey ← owsRequireNotNil keys.signalingMacKey
  let computedMac ← (payload.hmacWithSha1WithKey signalingMacKey).takeLast hmacTruncatedSize
  checkOperation (includedMac.isEqualToDataTimingSafe computedMac)
  return payload

def decryptRemoteNotificationData (keys : SignalKeyingStorage) (data : NSData) :
    Parses NSData := do
  raising (checkOperation (data.length ≥ versionSize + ivSize))
  let cipherKey ← raising (owsRequireNotNil keys.signalingCipherKey)
  let iv ← raising (data.subdataWithRange versionSize ivSize)
  let cipherText ← raising (data.skip (versionSize + ivSize))
  (outcome (decryptMessage SignalingTools.evpAes128Cbc cipherText cipherKey iv)).mapError .ofEvp

def parseFromData (data : NSData) : Parses InitiateSignal :=
  match SignalingTools.parseInitiateSignal data with
  | none => .error .invalidProtocolBuffer
  | some message => .ok message

def responderSessionDescriptorWithInteropVersion (interopVersion : ℕ) (relayUdpPort : UInt16)
    (sessionId : Int64) (relayServerName : Option NSString)
    (initiatorNumber : Option PhoneNumber) : Throws ResponderSessionDescriptor := do
  owsRequire (relayUdpPort > 0)
  let relayServerName ← owsRequireNotNil relayServerName
  let initiatorNumber ← owsRequireNotNil initiatorNumber
  return { interopVersion, relayUdpPort, sessionId, relayServerName, initiatorNumber }

/-- The checks of a message that was parsed. Those against zero hold of all numbers that have no
sign. -/
def descriptorOfPayload (parsedPayload : InitiateSignal) : Throws ResponderSessionDescriptor := do
  let maxPort : UInt16 := -1
  checkOperation (parsedPayload.version ≥ 0)
  checkOperation (parsedPayload.version ≤ maxSupportedInteropVersion)
  checkOperation (parsedPayload.sessionId ≥ 0)
  checkOperation (parsedPayload.port > 0 ∧ parsedPayload.port ≤ maxPort.toUInt32)
  let initiator ← checkNotNil parsedPayload.initiator
  let serverName ← checkNotNil parsedPayload.serverName
  let phoneNumber ← SignalingTools.phoneNumberFromE164 initiator
  responderSessionDescriptorWithInteropVersion parsedPayload.version.toNat
    parsedPayload.port.toUInt16 parsedPayload.sessionId.toInt64 (some serverName) phoneNumber

/-- All that is done with the bytes of a notification. -/
def descriptorOfAuthenticatedPayload (keys : SignalKeyingStorage)
    (authenticatedPayload : NSData) : Parses ResponderSessionDescriptor := do
  raising (checkOperation (authenticatedPayload.length > 0))
  let includedRemoteNotificationFormatVersion ← raising (authenticatedPayload.uint8At 0)
  raising (checkOperation
    (includedRemoteNotificationFormatVersion = expectedRemoteNotifFormatVersion))
  let encryptedPayload ←
    raising (verifyAndRemoveMacFromRemoteNotifcationData keys authenticatedPayload)
  let payload ← decryptRemoteNotificationData keys encryptedPayload
  let parsedPayload ← parseFromData payload
  raising (descriptorOfPayload parsedPayload)

def responderSessionDescriptorFromEncryptedRemoteNotification (keys : SignalKeyingStorage)
    (remoteNotif : Option NSDictionary) : Parses ResponderSessionDescriptor := do
  let remoteNotif ← raising (owsRequireNotNil remoteNotif)
  let message ← raising (checkNotNil (remoteNotif messagePropertyKey))
  let authenticatedPayload ← message.decodedAsBase64Data
  descriptorOfAuthenticatedPayload keys authenticatedPayload

end

section Tolerable
variable {α β : Type} {P : α → Prop} {x : Parses β} {f : β → Parses α}

/-- The push handler can go on: it catches `OperationFailed`, and what is returned meets `P`. -/
def Tolerable (P : α → Prop) (x : Parses α) : Prop :=
  (∃ description, x = .error (.raised (.operationFailed description))) ∨ ∃ a, x = .ok a ∧ P a

theorem tolerable_ok {a : α} : Tolerable P (.ok a) ↔ P a := by
  constructor
  · rintro (⟨_, h⟩ | ⟨a', h, hP⟩)
    · cases h
    · cases h
      exact hP
  · exact fun hP => .inr ⟨a, rfl, hP⟩

theorem tolerable_error {e : NotificationException} :
    Tolerable P (.error e) ↔ ∃ description, e = .raised (.operationFailed description) := by
  constructor
  · rintro (⟨description, h⟩ | ⟨a, h, -⟩)
    · exact ⟨description, Except.error.inj h⟩
    · cases h
  · rintro ⟨description, rfl⟩
    exact .inl ⟨description, rfl⟩

theorem tolerable_bind : Tolerable P (x >>= f) ↔ Tolerable (fun b => Tolerable P (f b)) x := by
  cases x with
  | ok b => exact (tolerable_ok (P := fun b => Tolerable P (f b))).symm
  | error e => exact (tolerable_error (α := α)).trans tolerable_error.symm

theorem tolerable_raising {x : Throws α} :
    Tolerable P (raising x) ↔ Throws.FailsSafely x ∧ ∀ a, x = .ok a → P a := by
  cases x with
  | ok a =>
    apply tolerable_ok.trans
    constructor
    · intro hP
      refine ⟨Throws.failsSafely_ok a, ?_⟩
      rintro _ ⟨⟩
      exact hP
    · exact fun h => h.2 a rfl
  | error e =>
    apply tolerable_error.trans
    constructor
    · rintro ⟨description, h⟩
      obtain rfl := NotificationException.raised.inj h
      exact ⟨Throws.failsSafely_operationFailed description, fun _ h => by cases h⟩
    · intro h
      obtain ⟨description, rfl⟩ := h.1 e rfl
      exact ⟨description, rfl⟩

theorem tolerable_raising_bind {x : Throws β} {f : β → Throws α} :
    Tolerable P (raising (x >>= f)) ↔
      Tolerable (fun b => Tolerable P (raising (f b))) (raising x) := by
  cases x with
  | ok b => exact (tolerable_ok (P := fun b => Tolerable P (raising (f b)))).symm
  | error e => exact (tolerable_error (α := α)).trans tolerable_error.symm

theorem tolerable_raising_ok {x : Throws α} {a : α} (h : x = .ok a) :
    Tolerable P (raising x) ↔ P a := by
  rw [h]
  exact tolerable_ok

theorem tolerable_checkOperation {condition : Prop} [Decidable condition] {P : Unit → Prop} :
    Tolerable P (raising (checkOperation condition)) ↔ (condition → P ()) := by
  rw [tolerable_raising, and_iff_right Throws.failsSafely_checkOperation]
  exact ⟨fun h hcondition => h () (checkOperation_eq_ok.mpr hcondition),
    fun h _ hok => h (checkOperation_eq_ok.mp hok)⟩

theorem tolerable_checkNotNil {object : Option α} :
    Tolerable P (raising (checkNotNil object)) ↔ ∀ a, object = some a → P a := by
  cases object with
  | none => exact iff_of_true (.inl ⟨none, rfl⟩) (fun _ h => by cases h)
  | some a =>
    apply tolerable_ok.trans
    simp only [Option.some.injEq, forall_eq']

theorem tolerable_owsRequireNotNil {object : Option α} :
    Tolerable P (raising (owsRequireNotNil object)) ↔ ∃ a, object = some a ∧ P a := by
  cases object with
  | none =>
    apply tolerable_error.trans
    exact iff_of_false (fun ⟨_, h⟩ => by cases h) (fun ⟨_, h, _⟩ => by cases h)
  | some a =>
    apply tolerable_ok.trans
    simp only [Option.some.injEq, exists_eq_left']

end Tolerable

/-- A session keeps its value in 64 bits with a sign where it is below the half of them. -/
theorem toInt_toInt64 (sessionId : UInt64) :
    sessionId.toInt64.toInt = sessionId.toNat ↔ sessionId.toNat < 2 ^ 63 := by
  have hlt : sessionId.toNat < 2 ^ 64 := sessionId.toNat_lt
  have hvalue : sessionId.toInt64.toInt = (sessionId.toNat : ℤ).bmod (2 ^ 64) :=
    BitVec.toInt_eq_toNat_bmod sessionId.toBitVec
  rw [hvalue, Int.bmod_def]
  split_ifs <;> omega

theorem zero_lt_toUInt16 {port : UInt32} (h : 0 < port ∧ port ≤ 65535) : 0 < port.toUInt16 := by
  have hpos : 0 < port.toNat := h.1
  have hmax : port.toNat ≤ 65535 := h.2
  have hvalue : port.toUInt16.toNat = port.toNat % 2 ^ 16 := UInt32.toNat_toUInt16 port
  apply UInt16.lt_iff_toNat_lt.mpr
  rw [hvalue]
  exact Nat.lt_of_lt_of_eq hpos (Nat.mod_eq_of_lt (by omega)).symm

section
variable [CryptoTools] [SignalingTools]

/-- The data in front of the MAC. -/
def withoutMac (data : NSData) : NSData := List.take (data.length - hmacTruncatedSize) data

/-- The last bytes are those of the MAC of the others. -/
def HasValidMac (macKey data : NSData) : Prop :=
  List.drop (data.length - hmacTruncatedSize) data =
    List.drop hmacTruncatedSize (CryptoTools.hmacSha1 macKey (withoutMac data))

/-- The initialization vector and what follows it are decrypted to `plain`, by a key of the right
length, and with lengths that are `int`s. -/
def Decrypts (cipherKey payload plain : NSData) : Prop :=
  let iv := List.take ivSize (List.drop versionSize payload)
  let cipherText := List.drop (versionSize + ivSize) payload
  cipherKey.length = 16 ∧ cipherText.length + 16 < 2 ^ 31 ∧
    ∃ bytes lastBytes,
      SignalingTools.evpAes128Cbc.decryptUpdate cipherKey iv cipherText = some bytes ∧
      SignalingTools.evpAes128Cbc.decryptFinal cipherKey iv cipherText = some lastBytes ∧
      plain = bytes ++ lastBytes

/-- The descriptor comes from a payload whose MAC was verified, and has the port, the version and the
session that were sent, within their bounds. -/
def IsFaithful (keys : SignalKeyingStorage) (remoteNotif : NSDictionary)
    (descriptor : ResponderSessionDescriptor) : Prop :=
  ∃ text data macKey cipherKey plain signal,
    remoteNotif messagePropertyKey = some (.string text) ∧
    text.decodedAsBase64Data = .ok data ∧
    keys.signalingMacKey = some macKey ∧ HasValidMac macKey data ∧
    keys.signalingCipherKey = some cipherKey ∧ Decrypts cipherKey (withoutMac data) plain ∧
    SignalingTools.parseInitiateSignal plain = some signal ∧
    descriptor.relayUdpPort.toNat = signal.port.toNat ∧
    1 ≤ descriptor.relayUdpPort.toNat ∧ descriptor.relayUdpPort.toNat ≤ 65535 ∧
    descriptor.interopVersion = signal.version.toNat ∧ descriptor.interopVersion ≤ 1 ∧
    descriptor.sessionId.toInt = signal.sessionId.toNat

/-- A message that passes all checks has a session that does not change its sign, and an initiator
that is a phone number or is refused by `OperationFailed`. -/
def IsToleratedSignal (signal : InitiateSignal) : Prop :=
  signal.version ≤ 1 → 0 < signal.port ∧ signal.port ≤ 65535 →
    ∀ initiator, signal.initiator = some initiator → signal.serverName ≠ none →
      Throws.FailsSafely (SignalingTools.phoneNumberFromE164 initiator) ∧
        ∀ phoneNumber, SignalingTools.phoneNumberFromE164 initiator = .ok phoneNumber →
          phoneNumber ≠ none ∧ signal.sessionId.toNat < 2 ^ 63

/-- A payload that is long enough is decrypted, to a message of the protocol buffer. -/
def IsToleratedPayload (keys : SignalKeyingStorage) (payload : NSData) : Prop :=
  versionSize + ivSize ≤ payload.length →
    ∃ cipherKey, keys.signalingCipherKey = some cipherKey ∧
      ∃ plain, Decrypts cipherKey payload plain ∧
        ∃ signal, SignalingTools.parseInitiateSignal plain = some signal ∧ IsToleratedSignal signal

/-- What an object under the key of the message has to meet: it is a string, not the empty one, and
where its size is right and its characters are ASCII they are those of base64. For data of the
expected format there is a MAC key, and what has a valid MAC is tolerated. -/
def IsTolerated (keys : SignalKeyingStorage) (remoteNotif : NSDictionary) : Prop :=
  ∀ message, remoteNotif messagePropertyKey = some message →
    ∃ text, message = .string text ∧ text ≠ [] ∧
      ((∀ p, text.paddingCount = .ok p → (text.length * 6 - p * 8) % 8 = 0) →
        (∀ unit ∈ text, unit < 0x80) → text.HasBase64Characters) ∧
      ∀ data, text.decodedAsBase64Data = .ok data → data[0]? = some 0 →
        hmacTruncatedSize ≤ data.length →
          ∃ macKey, keys.signalingMacKey = some macKey ∧
            (HasValidMac macKey data → IsToleratedPayload keys (withoutMac data))

variable {keys : SignalKeyingStorage} {remoteNotif : NSDictionary} {data payload : NSData}

omit [SignalingTools] in
theorem tolerable_verifyAndRemoveMac (hlawful : CryptoTools.Lawful) {P : NSData → Prop} :
    Tolerable P (raising (verifyAndRemoveMacFromRemoteNotifcationData keys data)) ↔
      (hmacTruncatedSize ≤ data.length → ∃ macKey, keys.signalingMacKey = some macKey ∧
        (HasValidMac macKey data → P (withoutMac data))) := by
  rw [verifyAndRemoveMacFromRemoteNotifcationData, tolerable_raising_bind,
    tolerable_checkOperation]
  apply imp_congr_right
  intro hlength
  have hincluded := NSData.takeLast_eq_ok.mpr ⟨hlength, rfl⟩
  have hpayload := NSData.skipLast_eq_ok.mpr ⟨hlength, rfl⟩
  rw [tolerable_raising_bind, tolerable_raising_ok hincluded, tolerable_raising_bind,
    tolerable_raising_ok hpayload, tolerable_raising_bind, tolerable_owsRequireNotNil]
  apply exists_congr
  intro macKey
  apply and_congr_right
  intro _
  have hmac : (CryptoTools.hmacSha1 macKey (withoutMac data)).length = 20 :=
    hlawful.length_hmacSha1 macKey (withoutMac data)
  have hcomputed : (NSData.hmacWithSha1WithKey (withoutMac data) macKey).takeLast
      hmacTruncatedSize =
        .ok (List.drop hmacTruncatedSize (CryptoTools.hmacSha1 macKey (withoutMac data))) := by
    apply NSData.takeLast_eq_ok.mpr
    have hhalf : 20 - hmacTruncatedSize = hmacTruncatedSize := rfl
    rw [NSData.hmacWithSha1WithKey, hmac, hhalf]
    exact ⟨by decide, rfl⟩
  rw [tolerable_raising_bind]
  apply (tolerable_raising_ok hcomputed).trans
  rw [tolerable_raising_bind, tolerable_checkOperation, NSData.isEqualToDataTimingSafe_iff]
  exact imp_congr_right fun _ => tolerable_ok

omit [CryptoTools] in
theorem decrypts_unique {cipherKey plain plain' : NSData} (h : Decrypts cipherKey payload plain)
    (h' : Decrypts cipherKey payload plain') : plain = plain' := by
  obtain ⟨-, -, bytes, lastBytes, hupdate, hfinal, rfl⟩ := h
  obtain ⟨-, -, bytes', lastBytes', hupdate', hfinal', rfl⟩ := h'
  obtain rfl := Option.some.inj (hupdate.symm.trans hupdate')
  obtain rfl := Option.some.inj (hfinal.symm.trans hfinal')
  rfl

omit [CryptoTools] in
theorem tolerable_decrypt (hcbc : IsAes128Cbc SignalingTools.evpAes128Cbc) {P : NSData → Prop} :
    Tolerable P (decryptRemoteNotificationData keys payload) ↔
      (versionSize + ivSize ≤ payload.length →
        ∃ cipherKey, keys.signalingCipherKey = some cipherKey ∧
          ∃ plain, Decrypts cipherKey payload plain ∧ P plain) := by
  rw [decryptRemoteNotificationData, tolerable_bind, tolerable_checkOperation]
  apply imp_congr_right
  intro hlength
  have hiv : payload.subdataWithRange versionSize ivSize =
      .ok (List.take ivSize (List.drop versionSize payload)) :=
    NSData.subdataWithRange_eq_ok.mpr ⟨hlength, rfl⟩
  have hcipherText := NSData.skip_eq_ok.mpr ⟨hlength, rfl⟩
  rw [tolerable_bind, tolerable_owsRequireNotNil]
  apply exists_congr
  intro cipherKey
  apply and_congr_right
  intro _
  rw [tolerable_bind, tolerable_raising_ok hiv, tolerable_bind, tolerable_raising_ok hcipherText]
  have hivLength : (List.take ivSize (List.drop versionSize payload)).length = 16 := by
    rw [List.length_take, List.length_drop]
    have hsizes : versionSize + ivSize ≤ payload.length := hlength
    unfold versionSize ivSize at *
    omega
  rcases @IsAes128.outcome_decryptMessage _ _ _ cipherKey
    (List.take ivSize (List.drop versionSize payload)) hcbc (by decide)
    (List.drop (versionSize + ivSize) payload) with
    ⟨bytes, lastBytes, haccepted, hroom, hupdate, hfinal, hok⟩ | ⟨hrefused, e, herror, hne⟩
  · rw [hok]
    apply tolerable_ok.trans
    obtain ⟨hkey, -⟩ := not_not.mp haccepted
    have hplain : Decrypts cipherKey payload (bytes ++ lastBytes) :=
      ⟨hkey, hroom, bytes, lastBytes, hupdate, hfinal, rfl⟩
    constructor
    · exact fun hP => ⟨_, hplain, hP⟩
    · intro ⟨_, hplain', hP⟩
      obtain rfl := decrypts_unique hplain hplain'
      exact hP
  · rw [herror]
    apply tolerable_error.trans
    apply iff_of_false
    · intro ⟨description, hdescription⟩
      cases e with
      | raised e =>
        have he : e = .operationFailed description := NotificationException.raised.inj hdescription
        exact hne description (congrArg EvpException.raised he)
      | opensslException => cases hdescription
      | assertion => cases hdescription
    · intro ⟨plain, ⟨hkey, hroom, bytes, lastBytes, hupdate, hfinal, _⟩, _⟩
      rcases hrefused with hrefused | hlong | hnone | hnone
      · exact hrefused ⟨hkey, hivLength⟩
      · omega
      · cases hupdate.symm.trans hnone
      · cases hfinal.symm.trans hnone

omit [CryptoTools] in
theorem tolerable_parseFromData {P : InitiateSignal → Prop} :
    Tolerable P (parseFromData data) ↔
      ∃ signal, SignalingTools.parseInitiateSignal data = some signal ∧ P signal := by
  rw [parseFromData]
  cases SignalingTools.parseInitiateSignal data with
  | none =>
    apply tolerable_error.trans
    exact iff_of_false (fun ⟨_, h⟩ => by cases h) (fun ⟨_, h, _⟩ => by cases h)
  | some signal =>
    apply tolerable_ok.trans
    simp only [Option.some.injEq, exists_eq_left']

omit [CryptoTools] in
/-- The message passes the checks, with the descriptor that comes of it. -/
theorem tolerable_descriptorOfPayload {signal : InitiateSignal}
    {P : ResponderSessionDescriptor → Prop}
    (hP : ∀ serverName phoneNumber, signal.version ≤ 1 → 0 < signal.port ∧ signal.port ≤ 65535 →
      (P ⟨signal.version.toNat, signal.port.toUInt16, signal.sessionId.toInt64, serverName,
        phoneNumber⟩ ↔ signal.sessionId.toNat < 2 ^ 63)) :
    Tolerable P (raising (descriptorOfPayload signal)) ↔ IsToleratedSignal signal := by
  rw [descriptorOfPayload]
  rw [tolerable_raising_bind, tolerable_checkOperation, imp_iff_right (UInt32.zero_le),
    tolerable_raising_bind, tolerable_checkOperation]
  apply imp_congr_right
  intro hversion
  rw [tolerable_raising_bind, tolerable_checkOperation, imp_iff_right (UInt64.zero_le),
    tolerable_raising_bind, tolerable_checkOperation]
  apply imp_congr_right
  intro hport
  rw [tolerable_raising_bind, tolerable_checkNotNil]
  apply forall_congr'
  intro initiator
  apply imp_congr_right
  intro _
  rw [tolerable_raising_bind, tolerable_checkNotNil]
  cases hname : signal.serverName with
  | none => exact iff_of_true (fun _ h => by cases h) (fun h => absurd rfl h)
  | some serverName =>
    rw [imp_iff_right (Option.some_ne_none serverName)]
    simp only [Option.some.injEq, forall_eq']
    rw [tolerable_raising_bind, tolerable_raising]
    apply and_congr_right
    intro _
    apply forall_congr'
    intro phoneNumber
    apply imp_congr_right
    intro _
    have hrequire : owsRequire (signal.port.toUInt16 > 0) = .ok () := by
      apply owsRequire_eq_ok.mpr
      exact zero_lt_toUInt16 hport
    rw [responderSessionDescriptorWithInteropVersion, hrequire]
    cases phoneNumber with
    | none =>
      apply iff_of_false
      · rintro (⟨_, h⟩ | ⟨_, h, -⟩)
        · cases h
        · cases h
      · exact fun h => h.1 rfl
    | some phoneNumber =>
      rw [and_iff_right (Option.some_ne_none phoneNumber),
        ← hP serverName phoneNumber hversion hport]
      exact tolerable_ok

/-- The data passes the check of its format, and is authenticated, decrypted and parsed. -/
theorem tolerable_descriptorOfAuthenticatedPayload
    (hcbc : IsAes128Cbc SignalingTools.evpAes128Cbc) (hlawful : CryptoTools.Lawful)
    {P : ResponderSessionDescriptor → Prop}
    (hP : ∀ macKey cipherKey plain signal, keys.signalingMacKey = some macKey →
      HasValidMac macKey data → keys.signalingCipherKey = some cipherKey →
      Decrypts cipherKey (withoutMac data) plain →
      SignalingTools.parseInitiateSignal plain = some signal →
      ∀ serverName phoneNumber, signal.version ≤ 1 → 0 < signal.port ∧ signal.port ≤ 65535 →
        (P ⟨signal.version.toNat, signal.port.toUInt16, signal.sessionId.toInt64, serverName,
          phoneNumber⟩ ↔ signal.sessionId.toNat < 2 ^ 63)) :
    Tolerable P (descriptorOfAuthenticatedPayload keys data) ↔
      (data[0]? = some 0 → hmacTruncatedSize ≤ data.length →
        ∃ macKey, keys.signalingMacKey = some macKey ∧
          (HasValidMac macKey data → IsToleratedPayload keys (withoutMac data))) := by
  rw [descriptorOfAuthenticatedPayload, tolerable_bind, tolerable_checkOperation]
  cases data with
  | nil => exact iff_of_true (fun h => absurd h (Nat.lt_irrefl 0)) (fun h => by cases h)
  | cons byte rest =>
    have hbyte : NSData.uint8At (byte :: rest) 0 = .ok byte := rfl
    have hpos : (byte :: rest).length > 0 := Nat.succ_pos rest.length
    rw [imp_iff_right hpos, tolerable_bind, tolerable_raising_ok hbyte,
      tolerable_bind, tolerable_checkOperation, List.getElem?_cons_zero, Option.some.injEq]
    apply imp_congr_right
    intro _
    rw [tolerable_bind, tolerable_verifyAndRemoveMac hlawful]
    apply imp_congr_right
    intro _
    apply exists_congr
    intro macKey
    apply and_congr_right
    intro hmacKey
    apply imp_congr_right
    intro hmac
    rw [tolerable_bind, tolerable_decrypt hcbc]
    apply imp_congr_right
    intro _
    apply exists_congr
    intro cipherKey
    apply and_congr_right
    intro hcipherKey
    apply exists_congr
    intro plain
    apply and_congr_right
    intro hplain
    rw [tolerable_bind, tolerable_parseFromData]
    apply exists_congr
    intro signal
    apply and_congr_right
    intro hsignal
    apply tolerable_descriptorOfPayload
    exact hP macKey cipherKey plain signal hmacKey hmac hcipherKey hplain hsignal

/-- The descriptor of a message that was received is as it was sent, but for a session whose sign
changes. -/
theorem isFaithful_iff {text : CodeUnits} {macKey cipherKey plain : NSData}
    {signal : InitiateSignal}
    (hmessage : remoteNotif messagePropertyKey = some (.string text))
    (hdata : text.decodedAsBase64Data = .ok data) (hmacKey : keys.signalingMacKey = some macKey)
    (hmac : HasValidMac macKey data) (hcipherKey : keys.signalingCipherKey = some cipherKey)
    (hplain : Decrypts cipherKey (withoutMac data) plain)
    (hsignal : SignalingTools.parseInitiateSignal plain = some signal)
    (hversion : signal.version ≤ 1) (hport : 0 < signal.port ∧ signal.port ≤ 65535)
    (serverName : NSString) (phoneNumber : PhoneNumber) :
    IsFaithful keys remoteNotif ⟨signal.version.toNat, signal.port.toUInt16,
      signal.sessionId.toInt64, serverName, phoneNumber⟩ ↔ signal.sessionId.toNat < 2 ^ 63 := by
  constructor
  · intro ⟨text', data', macKey', cipherKey', plain', signal', hmessage', hdata', _, _, hcipherKey',
      hplain', hsignal', _, _, _, _, _, hsession⟩
    obtain rfl := PropertyValue.string.inj (Option.some.inj (hmessage.symm.trans hmessage'))
    obtain rfl := Except.ok.inj (hdata.symm.trans hdata')
    obtain rfl := Option.some.inj (hcipherKey.symm.trans hcipherKey')
    obtain rfl := decrypts_unique hplain hplain'
    obtain rfl := Option.some.inj (hsignal.symm.trans hsignal')
    exact (toInt_toInt64 signal.sessionId).mp hsession
  · intro hsession
    have hmax : signal.port.toNat ≤ 65535 := hport.2
    have hpos : 0 < signal.port.toUInt16.toNat := zero_lt_toUInt16 hport
    have hvalue : signal.port.toUInt16.toNat = signal.port.toNat := by
      rw [UInt32.toNat_toUInt16]
      exact Nat.mod_eq_of_lt (by omega)
    exact ⟨text, data, macKey, cipherKey, plain, signal, hmessage, hdata, hmacKey, hmac, hcipherKey,
      hplain, hsignal, hvalue, hpos, by rw [hvalue]; exact hmax, rfl, hversion,
      (toInt_toInt64 signal.sessionId).mpr hsession⟩

/-- Exactly when a notification ends in `OperationFailed`, or in a descriptor that is as it was
sent. -/
theorem responderSessionDescriptor_spec (hcbc : IsAes128Cbc SignalingTools.evpAes128Cbc)
    (hlawful : CryptoTools.Lawful) (keys : SignalKeyingStorage) (remoteNotif : NSDictionary) :
    Tolerable (IsFaithful keys remoteNotif)
        (responderSessionDescriptorFromEncryptedRemoteNotification keys (some remoteNotif)) ↔
      IsTolerated keys remoteNotif := by
  rw [responderSessionDescriptorFromEncryptedRemoteNotification, tolerable_bind,
    tolerable_owsRequireNotNil]
  simp only [Option.some.injEq, exists_eq_left']
  rw [tolerable_bind, tolerable_checkNotNil]
  apply forall_congr'
  intro message
  apply imp_congr_right
  intro hmessage
  cases message with
  | other =>
    apply iff_of_false
    · rintro (⟨_, h⟩ | ⟨_, h, -⟩)
      · cases h
      · cases h
    · intro ⟨_, h, _⟩
      cases h
  | string text =>
    simp only [PropertyValue.string.injEq, exists_eq_left', PropertyValue.decodedAsBase64Data]
    rw [tolerable_bind, tolerable_raising]
    by_cases htext : text = []
    · subst htext
      apply iff_of_false
      · intro ⟨hsafe, _⟩
        obtain ⟨_, h⟩ := hsafe _ CodeUnits.decodedAsBase64Data_nil
        cases h
      · exact fun h => h.1 rfl
    rw [CodeUnits.failsSafely_decodedAsBase64Data htext, and_iff_right htext]
    apply and_congr_right
    intro _
    apply forall_congr'
    intro data
    apply imp_congr_right
    intro hdata
    apply tolerable_descriptorOfAuthenticatedPayload hcbc hlawful
    intro macKey cipherKey plain signal hmacKey hmac hcipherKey hplain hsignal serverName
      phoneNumber hversion hport
    exact isFaithful_iff hmessage hdata hmacKey hmac hcipherKey hplain hsignal hversion hport
      serverName phoneNumber

end

section Sample

local instance sampleCryptoTools : CryptoTools where
  sha256 _ := []
  hmacSha256 _ _ := []
  hmacSha1 _ _ := List.replicate 20 0
  aesCfbEncrypt _ _ data := data
  aesCfbDecrypt _ _ data := data
  aesCtrEncrypt _ _ data := data
  aesCtrDecrypt _ _ data := data

theorem lawful_sampleCryptoTools : CryptoTools.Lawful where
  length_hmacSha1 _ _ := rfl
  aesCtrDecrypt_aesCtrEncrypt _ _ _ := rfl

def sampleSignal (sessionId : UInt64) : InitiateSignal :=
  ⟨some "+15550100".toList, sessionId, 31337, some "relay".toList, 1⟩

/-- The fields of the message, with the varint of the session among them. -/
def encodedSignal (sessionId : NSData) : NSData :=
  [10, 9] ++ encodedAsAscii "+15550100" ++ [16] ++ sessionId ++ [24, 233, 244, 1] ++ [34, 5] ++
    encodedAsAscii "relay" ++ [40, 1]

/-- The varint of `2 ^ 63`. -/
def largeSessionId : NSData := List.replicate 9 128 ++ [1]

local instance sampleSignalingTools : SignalingTools where
  evpAes128Cbc := paddingCipher
  parseInitiateSignal data :=
    if data = encodedSignal [5] then some (sampleSignal 5)
    else if data = encodedSignal largeSessionId then some (sampleSignal 9223372036854775808)
    else none
  phoneNumberFromE164 number := .ok (some ⟨number⟩)

def sampleKeys : SignalKeyingStorage :=
  ⟨some (List.replicate 16 1), some (List.replicate 20 2)⟩

def sampleData (sessionId : NSData) : NSData :=
  let plain := encodedSignal sessionId
  let count := 16 - plain.length % 16
  [0] ++ List.replicate 16 7 ++ plain ++ List.replicate count (UInt8.ofNat count) ++
    List.replicate 10 0

def notificationOf (text : CodeUnits) : NSDictionary := fun key =>
  if key = messagePropertyKey then some (.string text) else none

def sampleText (sessionId : NSData) : CodeUnits :=
  CodeUnits.ofString (sampleData sessionId).encodedAsBase64

theorem decodedAsBase64Data_sampleText (sessionId : NSData) :
    (sampleText sessionId).decodedAsBase64Data = .ok (sampleData sessionId) :=
  CodeUnits.decodedAsBase64Data_encodedAsBase64 (List.cons_ne_nil _ _)

theorem descriptor_notificationOf {keys : SignalKeyingStorage} {text : CodeUnits} {data : NSData}
    (h : text.decodedAsBase64Data = .ok data) :
    responderSessionDescriptorFromEncryptedRemoteNotification keys (some (notificationOf text)) =
      descriptorOfAuthenticatedPayload keys data := by
  have hnotification : raising (owsRequireNotNil (some (notificationOf text))) =
      pure (notificationOf text) := rfl
  have hmessage : raising (checkNotNil (notificationOf text messagePropertyKey)) =
      pure (.string text) := rfl
  have hdata : (PropertyValue.string text).decodedAsBase64Data = pure data := by
    rw [PropertyValue.decodedAsBase64Data, h]
    rfl
  rw [responderSessionDescriptorFromEncryptedRemoteNotification, hnotification, pure_bind,
    hmessage, pure_bind, hdata, pure_bind]

/-- A message with a small session is read as it was sent. -/
theorem responderSessionDescriptor_spec_sample :
    Tolerable (IsFaithful sampleKeys (notificationOf (sampleText [5])))
      (responderSessionDescriptorFromEncryptedRemoteNotification sampleKeys
        (some (notificationOf (sampleText [5])))) := by
  have hcbc : IsAes128Cbc SignalingTools.evpAes128Cbc := isAes128Cbc_paddingCipher
  have hdecoded := decodedAsBase64Data_sampleText [5]
  have hnonempty : sampleText [5] ≠ [] := by
    intro hempty
    rw [hempty, CodeUnits.decodedAsBase64Data_nil] at hdecoded
    cases hdecoded
  have hcharacters := (CodeUnits.failsSafely_decodedAsBase64Data hnonempty).mp
    (Throws.failsSafely_of_eq_ok hdecoded)
  have hplain : Decrypts (List.replicate 16 1) (withoutMac (sampleData [5]))
      (encodedSignal [5]) := by
    refine ⟨rfl, by decide +kernel, _, _, rfl, rfl, ?_⟩
    decide +kernel
  have hsignal : IsToleratedSignal (sampleSignal 5) := by
    intro _ _ initiator _ _
    refine ⟨Throws.failsSafely_ok _, fun phoneNumber hphoneNumber => ?_⟩
    obtain rfl := Except.ok.inj hphoneNumber
    exact ⟨Option.some_ne_none _, by decide⟩
  have hpayload : IsToleratedPayload sampleKeys (withoutMac (sampleData [5])) :=
    fun _ => ⟨_, rfl, _, hplain, _, if_pos rfl, hsignal⟩
  apply (responderSessionDescriptor_spec hcbc lawful_sampleCryptoTools sampleKeys _).mpr
  intro message hmessage
  obtain rfl : .string (sampleText [5]) = message := Option.some.inj hmessage
  refine ⟨_, rfl, hnonempty, hcharacters, fun data hdata _ _ => ?_⟩
  obtain rfl := Except.ok.inj (hdecoded.symm.trans hdata)
  exact ⟨_, rfl, fun _ => hpayload⟩

/-- The empty text, a text with a character that is not of base64 and an object that is not a
string raise other exceptions than `OperationFailed`. A session of `2 ^ 63` comes out negative. -/
theorem responderSessionDescriptor_intolerable :
    responderSessionDescriptorFromEncryptedRemoteNotification sampleKeys
          (some (notificationOf [])) =
        .error (.raised .nsRangeException) ∧
      responderSessionDescriptorFromEncryptedRemoteNotification sampleKeys
          (some (notificationOf (CodeUnits.ofString "????".toList))) =
        .error (.raised .badArgument) ∧
      responderSessionDescriptorFromEncryptedRemoteNotification sampleKeys
          (some fun _ => some .other) = .error .unrecognizedSelector ∧
      (responderSessionDescriptorFromEncryptedRemoteNotification sampleKeys
          (some (notificationOf (sampleText largeSessionId)))).map (fun d => d.sessionId.toInt) =
        .ok (-9223372036854775808) ∧
      ¬ ∀ remoteNotif, Tolerable (IsFaithful sampleKeys remoteNotif)
        (responderSessionDescriptorFromEncryptedRemoteNotification sampleKeys
          (some remoteNotif)) := by
  have hempty : responderSessionDescriptorFromEncryptedRemoteNotification sampleKeys
      (some (notificationOf [])) = .error (.raised .nsRangeException) := by decide +kernel
  have hlarge : (responderSessionDescriptorFromEncryptedRemoteNotification sampleKeys
      (some (notificationOf (sampleText largeSessionId)))).map (fun d => d.sessionId.toInt) =
        .ok (-9223372036854775808) := by
    rw [descriptor_notificationOf (decodedAsBase64Data_sampleText largeSessionId)]
    decide +kernel
  refine ⟨hempty, by decide +kernel, rfl, hlarge, fun hall => ?_⟩
  have htolerable := hall (notificationOf [])
  rw [hempty, tolerable_error] at htolerable
  obtain ⟨_, h⟩ := htolerable
  cases h

end Sample

end SignalIOS.Signaling
