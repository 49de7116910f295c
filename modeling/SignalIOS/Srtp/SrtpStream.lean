import SignalIOS.Lib.Methods
import SignalIOS.Rtp.RtpPacket

/-! Sequence counters, and the authentication and encryption of RTP packets. -/
namespace SignalIOS.Srtp
open SignalIOS.Lib SignalIOS.Rtp

structure SequenceCounter where
  prevShortId : UInt16
  prevLongId : Int64
  deriving DecidableEq, Repr

namespace SequenceCounter

def sequenceCounter : SequenceCounter := ⟨0, 0⟩

def shortRange : Int64 := (1 : Int64) <<< (16 : Int64)

def convertNext (s : SequenceCounter) (nextShortId : UInt16) : Int64 × SequenceCounter :=
  let delta := nextShortId.toUInt64.toInt64 - s.prevShortId.toUInt64.toInt64
  let delta := if delta > 32767 then delta - shortRange else delta
  let delta := if delta < -32768 then delta + shortRange else delta
  let nextLongId := s.prevLongId + delta
  (nextLongId, ⟨nextShortId, nextLongId⟩)

end SequenceCounter

structure SrtpStream where
  cipherKey : NSData
  macKey : NSData
  cipherIvSalt : NSData
  sequenceCounter : SequenceCounter
  deriving DecidableEq, Repr

def hmacLength : ℕ := 20
def ivSaltLength : ℕ := 14
def ivLength : ℕ := 16

namespace SrtpStream

def srtpStreamWithCipherKey (cipherKey macKey cipherIvSalt : NSData) : Throws SrtpStream := do
  owsRequire (cipherIvSalt.length = ivSaltLength)
  return ⟨cipherKey, macKey, cipherIvSalt, SequenceCounter.sequenceCounter⟩

theorem macKey_of_srtpStreamWithCipherKey {cipherKey macKey cipherIvSalt : NSData} {s : SrtpStream}
    (h : srtpStreamWithCipherKey cipherKey macKey cipherIvSalt = .ok s) : s.macKey = macKey := by
  obtain ⟨_, -, hs⟩ := Throws.bind_eq_ok.mp h
  exact congrArg SrtpStream.macKey (Except.ok.inj hs).symm

/-- The bytes that are combined with the bytes 6 to 13 of the salt. -/
def ivMask (synchronizationSourceIdentifier : UInt64) (logicalSequence : Int64) : List UInt8 :=
  let sequence := logicalSequence.toUInt64
  [(synchronizationSourceIdentifier >>> 8).toUInt8, synchronizationSourceIdentifier.toUInt8,
    (sequence >>> 40).toUInt8, (sequence >>> 32).toUInt8, (sequence >>> 24).toUInt8,
    (sequence >>> 16).toUInt8, (sequence >>> 8).toUInt8, sequence.toUInt8]

def getIvForSequenceNumber (sequenceNumber : UInt16) (synchronizationSourceIdentifier : UInt64) :
    Method Exception SrtpStream NSData := do
  let s ← get
  let (logicalSequence, sequenceCounter) := s.sequenceCounter.convertNext sequenceNumber
  set { s with sequenceCounter }
  owsRequire (s.cipherIvSalt.length ≤ ivLength)
  let iv := s.cipherIvSalt ++ List.replicate (ivLength - s.cipherIvSalt.length) 0
  let mask := ivMask synchronizationSourceIdentifier logicalSequence
  return List.take 6 iv ++ (List.take 8 (iv.drop 6)).zipWith (· ^^^ ·) mask ++ iv.drop 14

variable [CryptoTools]

def encryptAndAuthenticateNormalRtpPacket (environment : Environment)
    (normalRtpPacket : RtpPacket) : Method Exception SrtpStream RtpPacket := do
  let iv ← getIvForSequenceNumber normalRtpPacket.sequenceNumber
    normalRtpPacket.synchronizationSourceIdentifier.toUInt64
  let encryptedPayload ←
    normalRtpPacket.payload.encryptWithAesInCounterMode (← get).cipherKey iv
  let encryptedRtpPacket ← normalRtpPacket.withPayload encryptedPayload
  let hmac := (← encryptedRtpPacket.rawPacketDataUsingInteropOptions environment
    []).hmacWithSha1WithKey (← get).macKey
  encryptedRtpPacket.withPayload (encryptedPayload ++ hmac)

/-- The packet ends with its HMAC under the key of the stream. -/
def verifyAuthentication (s : SrtpStream) (environment : Environment)
    (securedRtpPacket : RtpPacket) : Throws Unit := do
  checkOperation (securedRtpPacket.payload.length ≥ hmacLength)
    "Payload not long enough to include hmac"
  let authenticatedData ← securedRtpPacket.rawPacketDataUsingInteropOptions environment []
  let includedHmac ← authenticatedData.takeLast hmacLength
  let expectedHmac := (← authenticatedData.skipLast hmacLength).hmacWithSha1WithKey s.macKey
  checkOperation (expectedHmac.length = hmacLength) "Hmac length constant is wrong"
  checkOperation (includedHmac.isEqualToDataTimingSafe expectedHmac = true)
    "Authentication failed."

def verifyAuthenticationAndDecryptSecuredRtpPacket (environment : Environment)
    (securedRtpPacket : RtpPacket) : Method Exception SrtpStream RtpPacket := do
  (← get).verifyAuthentication environment securedRtpPacket
  let iv ← getIvForSequenceNumber securedRtpPacket.sequenceNumber
    securedRtpPacket.synchronizationSourceIdentifier.toUInt64
  let encryptedPayload ← securedRtpPacket.payload.skipLast hmacLength
  let decryptedPayload ←
    encryptedPayload.decryptWithAesInCounterMode (← get).cipherKey iv
  securedRtpPacket.withPayload decryptedPayload

/-- The serialized packet ends with the HMAC, under `macKey`, of what it has before that. -/
def Authenticates (macKey : NSData) (environment : Environment) (p : RtpPacket) : Prop :=
  hmacLength ≤ p.payload.length ∧ ∃ data hmac : NSData,
    p.rawPacketDataUsingInteropOptions environment [] = .ok (data ++ hmac) ∧
    hmac.length = hmacLength ∧ hmac = data.hmacWithSha1WithKey macKey

theorem authenticates_of_verifyAuthentication {s : SrtpStream} {environment : Environment}
    {p : RtpPacket} {u : Unit} (h : s.verifyAuthentication environment p = .ok u) :
    Authenticates s.macKey environment p := by
  simp only [verifyAuthentication, Throws.bind_eq_ok, checkOperation_eq_ok,
    NSData.takeLast_eq_ok, NSData.skipLast_eq_ok, NSData.isEqualToDataTimingSafe_iff] at h
  obtain ⟨-, hpayload, data, hdata, _, ⟨-, rfl⟩, _, ⟨-, rfl⟩, -, hlength, hequal⟩ := h
  exact ⟨hpayload, _, _, by rw [List.take_append_drop]; exact hdata, hequal ▸ hlength, hequal⟩

theorem verifyAuthenticationAndDecrypt_ensures (s : SrtpStream) (environment : Environment)
    (p : RtpPacket) :
    (verifyAuthenticationAndDecryptSecuredRtpPacket environment p).Ensures s
      (fun _ _ => Authenticates s.macKey environment p) fun _ _ => True := by
  rw [verifyAuthenticationAndDecryptSecuredRtpPacket, Method.ensures_bind, Method.ensures_get,
    Method.ensures_bind, Method.ensures_lift]
  refine ⟨fun u hverified => .intro (fun _ _ => ?_) fun _ _ => trivial, fun _ _ => trivial⟩
  exact authenticates_of_verifyAuthentication hverified

end SrtpStream
end SignalIOS.Srtp
