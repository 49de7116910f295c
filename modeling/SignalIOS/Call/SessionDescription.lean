import SignalIOS.Util.NSString

/-! Session descriptions, and what hardening does to their text. -/
namespace SignalIOS.Call
open SignalIOS.Lib

/-- Without options, the target is looked for as it is, from the left, and what has been replaced
is not looked at again. -/
def replacingOccurrences (text target replacement : NSString) : NSString :=
  replacement.intercalate (splitOn target text)

theorem replacingOccurrences_of_no_occurrence {text target : NSString} (replacement : NSString)
    (h : ¬ target <:+: text) : replacingOccurrences text target replacement = text := by
  rw [replacingOccurrences, splitOn_of_no_occurrence h, List.intercalate_singleton]

inductive RTCSdpType
  | offer
  | prAnswer
  | answer
  deriving DecidableEq, Repr

structure RTCSessionDescription where
  type : RTCSdpType
  sdp : NSString
  deriving DecidableEq, Repr

/-- What is replaced to enforce a constant bit rate. It is written as a regular expression. -/
def bitRatePattern : NSString := "(a=fmtp:111 ((?!cbr=).)*)\r?\n".toList

def bitRateTemplate : NSString := "$1;cbr=1\r\n".toList

/-- What is replaced to strip the audio levels, again as a regular expression. -/
def audioLevelPattern : NSString :=
  ".+urn:ietf:params:rtp-hdrext:ssrc-audio-level.*\r?\n".toList

structure HardenedRTCSessionDescription where
  rtcSessionDescription : RTCSessionDescription
  deriving DecidableEq, Repr

namespace HardenedRTCSessionDescription

def sdp (d : HardenedRTCSessionDescription) : NSString := d.rtcSessionDescription.sdp

def harden (rtcSessionDescription : RTCSessionDescription) : RTCSessionDescription :=
  let description := rtcSessionDescription.sdp
  -- enforce constant bit rate
  let description := replacingOccurrences description bitRatePattern bitRateTemplate
  -- strip plaintext audio-level details
  let description := replacingOccurrences description audioLevelPattern []
  ⟨rtcSessionDescription.type, description⟩

def init (rtcSessionDescription : RTCSessionDescription) : HardenedRTCSessionDescription :=
  ⟨harden rtcSessionDescription⟩

end HardenedRTCSessionDescription

/-! What a hardened description should be. -/

/-- The lines of a text, which end as `\r?\n` says. -/
def sdpLines (text : NSString) : List NSString :=
  (splitOn ['\n'] text).map fun line => if line.getLast? = some '\r' then line.dropLast else line

def audioLevelExtension : NSString := "urn:ietf:params:rtp-hdrext:ssrc-audio-level".toList

/-- The name of the extension stands in the line, behind something else. -/
def DeclaresAudioLevel (line : NSString) : Prop := audioLevelExtension <:+: line.tail

instance (line : NSString) : Decidable (DeclaresAudioLevel line) :=
  inferInstanceAs (Decidable (_ <:+: _))

def opusFormat : NSString := "a=fmtp:111 ".toList

def IsOpusFormat (line : NSString) : Prop := opusFormat <+: line

instance (line : NSString) : Decidable (IsOpusFormat line) :=
  inferInstanceAs (Decidable (_ <+: _))

/-- The parameters of an opus format line. -/
def opusParameters (line : NSString) : List NSString :=
  (NSString.componentsSeparatedByString (line.drop opusFormat.length) [';']).map
    NSString.trimWhitespace

/-- The line has the parameter `cbr=1`, and no other value for `cbr`. -/
def HasConstantBitRate (line : NSString) : Prop :=
  "cbr=1".toList ∈ opusParameters line ∧
    ∀ parameter ∈ opusParameters line, "cbr=".toList <+: parameter → parameter = "cbr=1".toList

instance (line : NSString) : Decidable (HasConstantBitRate line) :=
  inferInstanceAs (Decidable (_ ∧ _))

/-- Nothing in the text is to be hardened. -/
structure IsHard (text : NSString) : Prop where
  noAudioLevel : ∀ line ∈ sdpLines text, ¬ DeclaresAudioLevel line
  constantBitRate : ∀ line ∈ sdpLines text, IsOpusFormat line → HasConstantBitRate line

/-- The lines that hardening should leave alone. -/
def otherLines (text : NSString) : List NSString :=
  (sdpLines text).filter fun line => ¬ DeclaresAudioLevel line ∧ ¬ IsOpusFormat line

/-- The text of `hardened` is hard, has the other lines of `original`, and hardening it again
changes nothing. -/
structure Hardens (original hardened : RTCSessionDescription) : Prop where
  isHard : IsHard hardened.sdp
  keepsOthers : (otherLines original.sdp).Sublist (sdpLines hardened.sdp)
  idempotent : HardenedRTCSessionDescription.harden hardened = hardened

namespace HardenedRTCSessionDescription
variable {d : RTCSessionDescription}

/-- A description in which neither pattern is found as it is written stays as it is. -/
theorem harden_of_no_occurrence (hbitRate : ¬ bitRatePattern <:+: d.sdp)
    (haudioLevel : ¬ audioLevelPattern <:+: d.sdp) : harden d = d := by
  unfold harden
  dsimp only
  rw [replacingOccurrences_of_no_occurrence _ hbitRate, replacingOccurrences_of_no_occurrence _ haudioLevel]

/-- Such a description is hardened just if it is hard already. -/
theorem hardens_iff_isHard (hbitRate : ¬ bitRatePattern <:+: d.sdp)
    (haudioLevel : ¬ audioLevelPattern <:+: d.sdp) :
    Hardens d (init d).rtcSessionDescription ↔ IsHard d.sdp := by
  have hsame : (init d).rtcSessionDescription = d := harden_of_no_occurrence hbitRate haudioLevel
  rw [hsame]
  constructor
  · intro h
    exact h.isHard
  · intro h
    exact ⟨h, List.filter_sublist, hsame⟩

/-- Both patterns have an asterisk. -/
theorem no_occurrence_of_notMem (h : '*' ∉ d.sdp) :
    ¬ bitRatePattern <:+: d.sdp ∧ ¬ audioLevelPattern <:+: d.sdp := by
  constructor
  · intro hoccurs
    exact h (hoccurs.subset (by decide))
  · intro hoccurs
    exact h (hoccurs.subset (by decide))

def sampleDescription (opusLine : String) : RTCSessionDescription where
  type := .offer
  sdp := ("v=0\r\nm=audio 9 UDP/TLS/RTP/SAVPF 111\r\na=rtpmap:111 opus/48000/2\r\n" ++ opusLine ++
    "\r\n").toList

theorem hardens_sample :
    Hardens (sampleDescription "a=fmtp:111 minptime=10; cbr=1")
      (init (sampleDescription "a=fmtp:111 minptime=10; cbr=1")).rtcSessionDescription := by
  obtain ⟨hbitRate, haudioLevel⟩ :=
    no_occurrence_of_notMem (d := sampleDescription "a=fmtp:111 minptime=10; cbr=1") (by decide)
  refine (hardens_iff_isHard hbitRate haudioLevel).mpr ⟨?_, ?_⟩
  · exact List.forall_iff_forall_mem.mp (by decide)
  · exact List.forall_iff_forall_mem.mp (by decide)

/-- The offer of the library keeps its variable bit rate. -/
theorem variableBitRate_kept :
    ¬ ∀ d : RTCSessionDescription, Hardens d (init d).rtcSessionDescription := by
  intro h
  have hoffer := h (sampleDescription "a=fmtp:111 minptime=10;useinbandfec=1")
  obtain ⟨hbitRate, haudioLevel⟩ :=
    no_occurrence_of_notMem (d := sampleDescription "a=fmtp:111 minptime=10;useinbandfec=1") (by decide)
  have hsame : (init (sampleDescription "a=fmtp:111 minptime=10;useinbandfec=1")
      ).rtcSessionDescription = sampleDescription "a=fmtp:111 minptime=10;useinbandfec=1" :=
    harden_of_no_occurrence hbitRate haudioLevel
  rw [hsame] at hoffer
  have hcbr := hoffer.isHard.constantBitRate "a=fmtp:111 minptime=10;useinbandfec=1".toList
    (by decide) (by decide)
  exact absurd hcbr (by decide)

end HardenedRTCSessionDescription
end SignalIOS.Call
