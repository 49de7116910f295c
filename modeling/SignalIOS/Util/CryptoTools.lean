import SignalIOS.Util.NSData

/-! The cryptographic primitives, which come from OpenSSL, and the settings of the application. -/
namespace SignalIOS

/-- The primitives of OpenSSL. -/
class CryptoTools where
  sha256 : NSData → NSData
  hmacSha256 (key data : NSData) : NSData
  hmacSha1 (key data : NSData) : NSData
  aesCfbEncrypt (key iv data : NSData) : NSData
  aesCfbDecrypt (key iv data : NSData) : NSData
  aesCtrEncrypt (key iv data : NSData) : NSData
  aesCtrDecrypt (key iv data : NSData) : NSData

/-- The size of an HMAC with SHA1, and that counter mode undoes itself under the same key and
initialization vector. -/
structure CryptoTools.Lawful [CryptoTools] : Prop where
  length_hmacSha1 : ∀ key data, (CryptoTools.hmacSha1 key data).length = 20
  aesCtrDecrypt_aesCtrEncrypt : ∀ key iv data,
    CryptoTools.aesCtrDecrypt key iv (CryptoTools.aesCtrEncrypt key iv data) = data

def aes128KeyLength : ℕ := 16

def aesIvLength : ℕ := 16

namespace NSData
variable [CryptoTools]

def hashWithSha256 (data : NSData) : NSData := CryptoTools.sha256 data

def hmacWithSha256WithKey (data key : NSData) : NSData := CryptoTools.hmacSha256 key data

def hmacWithSha1WithKey (data key : NSData) : NSData := CryptoTools.hmacSha1 key data

/-- `assertKey:andIv:lengthsAgainstCipher:`, and then the cipher. -/
def usingCipher (cipher : NSData → NSData → NSData → NSData) (message key iv : NSData) :
    Throws NSData := do
  owsRequire (key.length = aes128KeyLength)
  owsRequire (iv.length = aesIvLength)
  return cipher key iv message

omit [CryptoTools] in
theorem usingCipher_eq_ok (cipher : NSData → NSData → NSData → NSData) (message : NSData)
    {key iv : NSData} (hkey : key.length = aes128KeyLength) (hiv : iv.length = aesIvLength) :
    usingCipher cipher message key iv = .ok (cipher key iv message) := by
  simp only [usingCipher, owsRequire, if_pos hkey, if_pos hiv]
  rfl

def encryptWithAesInCipherFeedbackMode (message key iv : NSData) : Throws NSData :=
  usingCipher CryptoTools.aesCfbEncrypt message key iv

def decryptWithAesInCipherFeedbackMode (message key iv : NSData) : Throws NSData :=
  usingCipher CryptoTools.aesCfbDecrypt message key iv

def encryptWithAesInCounterMode (message key iv : NSData) : Throws NSData :=
  usingCipher CryptoTools.aesCtrEncrypt message key iv

def decryptWithAesInCounterMode (message key iv : NSData) : Throws NSData :=
  usingCipher CryptoTools.aesCtrDecrypt message key iv

end NSData

/-- A key agreement protocol, by the id that `getId` returns. -/
structure KeyAgreementProtocol where
  getId : NSData
  deriving DecidableEq, Repr

inductive TestingOrLegacyOption
  | testingLoseConfAckOnPurpose
  | legacyRtpPaddingBitImpliesExtensionBitAndTwelveExtraZeroBytesInHeader
  deriving DecidableEq, Repr

/-- The settings of the environment that the handshake and the packets depend on. -/
structure Environment where
  keyAgreementProtocolsInDescendingPriority : List KeyAgreementProtocol
  zrtpClientId : NSData
  zrtpVersionId : NSData
  testingAndLegacyOptions : List TestingOrLegacyOption

def Environment.hasEnabledTestingOrLegacyOption (environment : Environment)
    (option : TestingOrLegacyOption) : Bool :=
  environment.testingAndLegacyOptions.contains option

end SignalIOS
