import SignalIOS.Rtp.RoundTrip
import SignalIOS.Srtp.SequenceCounting

/-! What one invocation of a stream does: the packet it secures, and when it accepts one. -/
namespace SignalIOS.Srtp
open SignalIOS.Lib SignalIOS.Rtp

namespace SrtpStream

/-- What the factory makes sure of, and the size of keys that the cipher accepts. -/
structure Valid (s : SrtpStream) : Prop where
  cipherKey : s.cipherKey.length = aes128KeyLength
  cipherIvSalt : s.cipherIvSalt.length = ivSaltLength

/-- The initialization vector that the salt and the number of a packet give. -/
def ivOf (cipherIvSalt : NSData) (synchronizationSourceIdentifier : UInt64)
    (logicalSequence : Int64) : NSData :=
  let iv := cipherIvSalt ++ List.replicate (ivLength - cipherIvSalt.length) 0
  let mask := ivMask synchronizationSourceIdentifier logicalSequence
  List.take 6 iv ++ (List.take 8 (iv.drop 6)).zipWith (· ^^^ ·) mask ++ iv.drop 14

theorem length_ivOf {cipherIvSalt : NSData} (h : cipherIvSalt.length = ivSaltLength)
    (source : UInt64) (logicalSequence : Int64) :
    (ivOf cipherIvSalt source logicalSequence).length = aesIvLength := by
  have hmask : (ivMask source logicalSequence).length = 8 := rfl
  simp [ivOf, h, hmask, ivLength, ivSaltLength, aesIvLength]

theorem run_getIvForSequenceNumber {s : SrtpStream} (hs : s.cipherIvSalt.length = ivSaltLength)
    (sequenceNumber : UInt16) (source : UInt64) :
    (getIvForSequenceNumber sequenceNumber source).run.run s =
      (.ok (ivOf s.cipherIvSalt source (s.sequenceCounter.convertNext sequenceNumber).1),
        { s with sequenceCounter := (s.sequenceCounter.convertNext sequenceNumber).2 }) := by
  have hlength : s.cipherIvSalt.length ≤ ivLength := by
    rw [hs]
    decide
  simp only [getIvForSequenceNumber, Method.run_bind, Method.run_get, Method.run_set,
    Method.run_lift, owsRequire, if_pos hlength, Method.run_pure]
  rfl

variable [CryptoTools]

/-- The bytes that the HMAC of a packet is made of, where it has this payload. -/
def authenticatedBytes (p : RtpPacket) (encryptedPayload : NSData) : NSData :=
  ({ p with payload := encryptedPayload } : RtpPacket).layout p.flagsByte []

/-- The packet that is sent for `p` as the packet of this number. -/
def securedPacket (s : SrtpStream) (p : RtpPacket) (logicalSequence : Int64) : RtpPacket :=
  let iv := ivOf s.cipherIvSalt p.synchronizationSourceIdentifier.toUInt64 logicalSequence
  let encryptedPayload := CryptoTools.aesCtrEncrypt s.cipherKey iv p.payload
  { p with
    payload := encryptedPayload ++
      (authenticatedBytes p encryptedPayload).hmacWithSha1WithKey s.macKey
    rawPacketData := none }

theorem securedPacket_valid (s : SrtpStream) {p : RtpPacket} (hp : p.Valid)
    (logicalSequence : Int64) : (s.securedPacket p logicalSequence).Valid :=
  hp.setPayload _ none

/-- The keys of the stream are those of `t`. -/
def SameKeys (s t : SrtpStream) : Prop :=
  s.cipherKey = t.cipherKey ∧ s.macKey = t.macKey ∧ s.cipherIvSalt = t.cipherIvSalt

theorem run_encryptAndAuthenticateNormalRtpPacket {s : SrtpStream} (hs : s.Valid) {p : RtpPacket}
    (hp : p.Valid) (environment : Environment) :
    (encryptAndAuthenticateNormalRtpPacket environment p).run.run s =
      (.ok (s.securedPacket p (s.sequenceCounter.convertNext p.sequenceNumber).1),
        { s with sequenceCounter := (s.sequenceCounter.convertNext p.sequenceNumber).2 }) := by
  have hiv (n : Int64) := length_ivOf hs.cipherIvSalt p.synchronizationSourceIdentifier.toUInt64 n
  have hencrypt (n : Int64) : p.payload.encryptWithAesInCounterMode s.cipherKey
      (ivOf s.cipherIvSalt p.synchronizationSourceIdentifier.toUInt64 n) =
        .ok (CryptoTools.aesCtrEncrypt s.cipherKey
          (ivOf s.cipherIvSalt p.synchronizationSourceIdentifier.toUInt64 n) p.payload) :=
    NSData.usingCipher_eq_ok _ _ hs.cipherKey (hiv n)
  have hpayload (payload : NSData) := (hp.setPayload payload none).withPayload_eq
  have hraw (payload : NSData) :=
    (hp.setPayload payload none).rawPacketDataUsingInteropOptions_eq rfl environment
  simp only [encryptAndAuthenticateNormalRtpPacket, Method.run_bind,
    run_getIvForSequenceNumber hs.cipherIvSalt, Method.run_get, Method.run_lift, hencrypt,
    hp.withPayload_eq, hraw, hpayload]
  rfl

/-- A secured packet without padding ends with its HMAC. -/
theorem verifyAuthentication_securedPacket {s t : SrtpStream} (hkeys : s.SameKeys t)
    (hlawful : CryptoTools.Lawful) {p : RtpPacket} (hp : p.Valid) (hpadding : p.padding = 0)
    (environment : Environment) (logicalSequence : Int64) :
    t.verifyAuthentication environment (s.securedPacket p logicalSequence) = .ok () := by
  let encryptedPayload := CryptoTools.aesCtrEncrypt s.cipherKey
    (ivOf s.cipherIvSalt p.synchronizationSourceIdentifier.toUInt64 logicalSequence) p.payload
  let data := authenticatedBytes p encryptedPayload
  let hmac := data.hmacWithSha1WithKey s.macKey
  have hlength : hmac.length = hmacLength := hlawful.length_hmacSha1 _ _
  have hraw : (s.securedPacket p logicalSequence).rawPacketDataUsingInteropOptions environment [] =
      .ok (data ++ hmac) := by
    have hserialized := (hp.setPayload (encryptedPayload ++ hmac)
      none).rawPacketDataUsingInteropOptions_eq rfl environment
    exact hserialized.trans
      (congrArg _ (p.layout_append hpadding encryptedPayload hmac p.flagsByte []))
  have hkey : data.hmacWithSha1WithKey t.macKey = hmac := by rw [← hkeys.2.1]
  simp only [verifyAuthentication, Throws.bind_eq_ok, checkOperation_eq_ok, hraw,
    NSData.takeLast_eq_ok, NSData.skipLast_eq_ok, NSData.isEqualToDataTimingSafe_iff]
  refine ⟨⟨⟩, ?_, data ++ hmac, rfl, hmac, ⟨?_, ?_⟩, data, ⟨?_, ?_⟩, ⟨⟩, ?_, hkey.symm⟩
  · show hmacLength ≤ (encryptedPayload ++ hmac).length
    rw [List.length_append, hlength]
    omega
  · rw [List.length_append, hlength]
    omega
  · rw [List.length_append, hlength, Nat.add_sub_cancel, List.drop_left]
  · rw [List.length_append, hlength]
    omega
  · rw [List.length_append, hlength, Nat.add_sub_cancel, List.take_left]
  · rw [hkey, hlength]

/-- The peer, whose counter finds the number of the packet, gets back what was secured. -/
theorem run_verifyAuthenticationAndDecrypt_securedPacket {s t : SrtpStream} (ht : t.Valid)
    (hkeys : s.SameKeys t) (hlawful : CryptoTools.Lawful) {p : RtpPacket} (hp : p.Valid)
    (hraw : p.rawPacketData = none) (hpadding : p.padding = 0) (environment : Environment)
    {logicalSequence : Int64} {sequenceCounter : SequenceCounter}
    (hnext : t.sequenceCounter.convertNext p.sequenceNumber = (logicalSequence, sequenceCounter)) :
    (verifyAuthenticationAndDecryptSecuredRtpPacket environment
      (s.securedPacket p logicalSequence)).run.run t = (.ok p, { t with sequenceCounter }) := by
  let iv := ivOf s.cipherIvSalt p.synchronizationSourceIdentifier.toUInt64 logicalSequence
  let encryptedPayload := CryptoTools.aesCtrEncrypt s.cipherKey iv p.payload
  let hmac := (authenticatedBytes p encryptedPayload).hmacWithSha1WithKey s.macKey
  have hlength : hmac.length = hmacLength := hlawful.length_hmacSha1 _ _
  let secured := s.securedPacket p logicalSequence
  have hverified : t.verifyAuthentication environment secured = .ok () :=
    verifyAuthentication_securedPacket hkeys hlawful hp hpadding environment logicalSequence
  have hencrypted : secured.payload.skipLast hmacLength = .ok encryptedPayload := by
    rw [show secured.payload = encryptedPayload ++ hmac from rfl, NSData.skipLast_eq_ok,
      List.length_append, hlength, Nat.add_sub_cancel, List.take_left]
    exact ⟨by omega, rfl⟩
  have hiv : iv.length = aesIvLength := length_ivOf (hkeys.2.2 ▸ ht.cipherIvSalt) _ _
  have hdecrypted : encryptedPayload.decryptWithAesInCounterMode t.cipherKey iv =
      .ok p.payload := by
    rw [NSData.decryptWithAesInCounterMode, NSData.usingCipher_eq_ok _ _ ht.cipherKey hiv,
      ← hkeys.1, hlawful.aesCtrDecrypt_aesCtrEncrypt]
  have hpayload : secured.withPayload p.payload = .ok p := by
    rw [(s.securedPacket_valid hp logicalSequence).withPayload_eq]
    simp only [securedPacket, ← hraw]
  have hgetIv : (getIvForSequenceNumber secured.sequenceNumber
      secured.synchronizationSourceIdentifier.toUInt64).run.run t =
        (.ok iv, { t with sequenceCounter }) := by
    rw [run_getIvForSequenceNumber ht.cipherIvSalt, ← hkeys.2.2]
    simp only [secured, securedPacket, hnext, iv]
  show (verifyAuthenticationAndDecryptSecuredRtpPacket environment secured).run.run t = _
  simp only [verifyAuthenticationAndDecryptSecuredRtpPacket, Method.run_bind, Method.run_get,
    Method.run_lift, hverified, hgetIv, hencrypted, hdecrypted, hpayload]

/-- A packet that fails authentication leaves the stream as it was. -/
theorem run_verifyAuthenticationAndDecrypt_of_rejected {s : SrtpStream} {environment : Environment}
    {p : RtpPacket} {e : Exception} (h : s.verifyAuthentication environment p = .error e) :
    (verifyAuthenticationAndDecryptSecuredRtpPacket environment p).run.run s = (.error e, s) := by
  simp only [verifyAuthenticationAndDecryptSecuredRtpPacket, Method.run_bind, Method.run_get,
    Method.run_lift, h]

/-- Whatever happens to a packet, the keys of the stream stay. -/
theorem verifyAuthenticationAndDecrypt_leaves_keys (s : SrtpStream) (environment : Environment)
    (p : RtpPacket) : (verifyAuthenticationAndDecryptSecuredRtpPacket environment p).Leaves s
      s.SameKeys := by
  simp only [verifyAuthenticationAndDecryptSecuredRtpPacket, getIvForSequenceNumber,
    Method.Leaves, Method.ensures_bind, Method.ensures_get, Method.ensures_lift,
    Method.ensures_set]
  simp [SameKeys]

end SrtpStream
end SignalIOS.Srtp
