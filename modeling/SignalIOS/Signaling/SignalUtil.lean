import SignalIOS.Http.MessageStream
import SignalIOS.Http.OneTimeCounter

/-! The requests of the signaling protocol: those that the phone makes, and what it takes those of
the server for. -/
namespace SignalIOS
open SignalIOS.Lib

/-- A fraction is cut off. Beyond `long long` the value is open, and no test below passes. -/
def NSNumber.longLongValue (number : NSNumber) : Int64 :=
  match number with
  | none => 0
  | some value => Int64.ofInt (value.num.tdiv value.den)

def NSNumber.hasLongLongValue (number : NSNumber) : Bool :=
  number = some (number.longLongValue.toInt : ℚ)

theorem NSNumber.longLongValue_of_int (n : Int64) :
    NSNumber.longLongValue (some (n.toInt : ℚ)) = n := by
  have hnum : (n.toInt : ℚ).num = n.toInt := Rat.num_intCast _
  have hden : (n.toInt : ℚ).den = 1 := Rat.den_intCast _
  rw [NSNumber.longLongValue, hnum, hden, Nat.cast_one, Int.tdiv_one, Int64.ofInt_toInt]

theorem NSNumber.hasLongLongValue_iff {number : NSNumber} :
    number.hasLongLongValue = true ↔ ∃ n : Int64, number = some (n.toInt : ℚ) := by
  rw [hasLongLongValue, decide_eq_true_iff]
  constructor
  · intro h
    exact ⟨_, h⟩
  · rintro ⟨n, rfl⟩
    rw [longLongValue_of_int]

/-- A `long long` that is written plainly is read as it is. -/
class LawfulLongLongReading [NumberReading] : Prop extends LawfulNumberReading where
  numberFromString_ofInt64 (n : Int64) : NumberReading.numberFromString (.ofInt64 n) = true
  decimalNumberWithString_ofInt64 (n : Int64) :
    NumberReading.decimalNumberWithString (.ofInt64 n) = some (n.toInt : ℚ)

namespace Http.HttpRequest

def sessionPath : NSString := "/session/".toList

section
variable [NumberReading]

def tryGetSessionId (request : HttpRequest) : Option NSNumber :=
  if sessionPath.isPrefixOf request.location then
    let sessionIdText := NSString.trimWhitespace (request.location.drop sessionPath.length)
    match sessionIdText.tryParseAsDecimalNumber with
    | none => none
    | some sessionIdNumber =>
      if sessionIdNumber.hasLongLongValue then some sessionIdNumber else none
  else none

def isKeepAlive (request : HttpRequest) : Bool :=
  request.method = "GET".toList && "/keepalive".toList.isPrefixOf request.location

/-- `isRingingForSession`, `isHangupForSession` and `isBusyForSession`, which differ in the method. -/
def isMethodForSession (method : NSString) (request : HttpRequest) (targetSessionId : Int64) : Bool :=
  let isMethod := request.method = method
  let isSession := match request.tryGetSessionId with
    | some sessionId => some (targetSessionId.toInt : ℚ) = sessionId
    | none => false
  isMethod && isSession

def isRingingForSession (request : HttpRequest) (targetSessionId : Int64) : Bool :=
  request.isMethodForSession "RING".toList targetSessionId

def isHangupForSession (request : HttpRequest) (targetSessionId : Int64) : Bool :=
  request.isMethodForSession "DELETE".toList targetSessionId

def isBusyForSession (request : HttpRequest) (targetSessionId : Int64) : Bool :=
  request.isMethodForSession "BUSY".toList targetSessionId

end

def httpRequestToOpenPortWithSessionId (sessionId : Int64) : HttpRequest :=
  httpRequestUnauthenticatedWithMethod "GET".toList ("/open/".toList ++ .ofInt64 sessionId) none

/-- What requests with a one-time password are made with: the account, and the next value of the
counter. -/
structure OtpCredentials where
  localNumber : Option NSString
  password : Option NSString
  counter : Int64

section
variable [CryptoTools]

/-- A request of a session, of any method. -/
def httpRequestWithSessionId (method : NSString) (sessionId : Int64) (otp : OtpCredentials) :
    Throws HttpRequest :=
  httpRequestWithOtpAuthenticationAndMethod method (sessionPath ++ .ofInt64 sessionId) none
    otp.localNumber otp.password otp.counter

def httpRequestToRingWithSessionId (sessionId : Int64) (otp : OtpCredentials) :
    Throws HttpRequest :=
  httpRequestWithSessionId "RING".toList sessionId otp

def httpRequestToSignalBusyWithSessionId (sessionId : Int64) (otp : OtpCredentials) :
    Throws HttpRequest :=
  httpRequestWithSessionId "BUSY".toList sessionId otp

/-- `CLAIMED_INTEROP_VERSION_IN_INITIATE_SIGNAL`. -/
def claimedInteropVersion : ℕ := 1

def httpRequestToInitiateToRemoteNumber (remoteNumber : NSString) (otp : OtpCredentials) :
    Throws HttpRequest :=
  let interopVersionInsert :=
    if claimedInteropVersion = 0 then [] else '/' :: NSString.ofNumber claimedInteropVersion
  httpRequestWithOtpAuthenticationAndMethod "GET".toList
    ("/session".toList ++ interopVersionInsert ++ "/".toList ++ remoteNumber) none
    otp.localNumber otp.password otp.counter

end
end Http.HttpRequest

namespace NSString

theorem isTrimmed_of_forall {text : NSString} (h : ∀ c ∈ text, isWhitespace c = false) :
    text.IsTrimmed := by
  constructor
  · intro c hc
    exact h c (List.mem_of_mem_head? hc)
  · intro c hc
    exact h c (List.mem_of_mem_getLast? hc)

theorem mem_ofInt64 {n : Int64} {c : Char} (h : c ∈ ofInt64 n) :
    c = '-' ∨ 48 ≤ c.toNat ∧ c.toNat ≤ 57 := by
  unfold ofInt64 at h
  split_ifs at h
  · rcases List.mem_cons.mp h with hsign | hdigit
    · exact .inl hsign
    · exact .inr (digit_of_mem_ofNumber hdigit)
  · exact .inr (digit_of_mem_ofNumber h)

theorem isTrimmed_ofInt64 (n : Int64) : (ofInt64 n).IsTrimmed := by
  apply isTrimmed_of_forall
  intro c hc
  rcases mem_ofInt64 hc with rfl | hdigit
  · decide
  · simp only [isWhitespace, List.mem_cons, List.not_mem_nil, or_false, Bool.or_eq_false_iff,
      decide_eq_false_iff_not, Bool.and_eq_false_iff]
    omega

end NSString

theorem NSData.mem_encodedAsBase64 {data : NSData} {c : Char} (h : c ∈ data.encodedAsBase64) :
    c ∈ base64Chars ∨ c = '=' := by
  rcases List.mem_append.mp h with hword | hpadding
  · obtain ⟨i, -, rfl⟩ := List.mem_map.mp hword
    have hlt : base64Word data.bits i < base64Chars.length := base64Word_lt _ i
    rw [List.getD_eq_getElem _ _ hlt]
    exact .inl (List.getElem_mem hlt)
  · exact .inr (List.eq_of_mem_replicate hpadding)

namespace Http

/-- What a request can tell of a session. -/
inductive SessionVerb
  | ring
  | hangup
  | busy
  deriving DecidableEq, Repr

def SessionVerb.method : SessionVerb → NSString
  | ring => "RING".toList
  | hangup => "DELETE".toList
  | busy => "BUSY".toList

structure SessionSignal where
  verb : SessionVerb
  sessionId : Int64
  deriving DecidableEq

theorem SessionVerb.method_inj {verb verb' : SessionVerb} (h : verb.method = verb'.method) :
    verb = verb' := by
  cases verb <;> cases verb' <;> first | rfl | exact absurd h (by decide)

namespace HttpRequest

section
variable [NumberReading] {request request' : HttpRequest} {signal signal' : SessionSignal}
  {sessionId : Int64}

/-- The request tells this of this session. -/
structure Tells (request : HttpRequest) (signal : SessionSignal) : Prop where
  method : request.method = signal.verb.method
  sessionId : request.tryGetSessionId = some (some (signal.sessionId.toInt : ℚ))

theorem isMethodForSession_iff {method : NSString} :
    request.isMethodForSession method sessionId = true ↔
      request.method = method ∧ request.tryGetSessionId = some (some (sessionId.toInt : ℚ)) := by
  unfold isMethodForSession
  cases request.tryGetSessionId with
  | none => simp
  | some number =>
    rw [Bool.and_eq_true, decide_eq_true_iff, decide_eq_true_iff, Option.some.injEq,
      eq_comm (a := number)]

theorem isRingingForSession_iff :
    request.isRingingForSession sessionId = true ↔ request.Tells ⟨.ring, sessionId⟩ := by
  rw [isRingingForSession, isMethodForSession_iff]
  exact ⟨fun h => ⟨h.1, h.2⟩, fun h => ⟨h.method, h.sessionId⟩⟩

theorem isHangupForSession_iff :
    request.isHangupForSession sessionId = true ↔ request.Tells ⟨.hangup, sessionId⟩ := by
  rw [isHangupForSession, isMethodForSession_iff]
  exact ⟨fun h => ⟨h.1, h.2⟩, fun h => ⟨h.method, h.sessionId⟩⟩

theorem isBusyForSession_iff :
    request.isBusyForSession sessionId = true ↔ request.Tells ⟨.busy, sessionId⟩ := by
  rw [isBusyForSession, isMethodForSession_iff]
  exact ⟨fun h => ⟨h.1, h.2⟩, fun h => ⟨h.method, h.sessionId⟩⟩

/-- A request tells one thing only, and of one session. -/
theorem Tells.unique (h : request.Tells signal) (h' : request.Tells signal') : signal = signal' := by
  obtain ⟨verb, sessionId⟩ := signal
  obtain ⟨verb', sessionId'⟩ := signal'
  have hverb : verb = verb' := SessionVerb.method_inj (h.method.symm.trans h'.method)
  have hnumber := Option.some.inj (Option.some.inj (h.sessionId.symm.trans h'.sessionId))
  have hsession : sessionId = sessionId' := Int64.toInt_inj.mp (Rat.intCast_inj.mp hnumber)
  rw [hverb, hsession]

/-- What tells of a session is no heart beat. -/
theorem Tells.not_keepAlive (h : request.Tells signal) : request.isKeepAlive = false := by
  have hmethod : signal.verb.method ≠ "GET".toList := by
    cases signal.verb <;> decide
  rw [isKeepAlive, h.method, decide_eq_false hmethod, Bool.false_and]

theorem Tells.of_same (h : request'.Tells signal) (hsame : request.Same request') :
    request.Tells signal := by
  constructor
  · rw [hsame.method, h.method]
  · have hsession : request.tryGetSessionId = request'.tryGetSessionId := by
      unfold tryGetSessionId
      rw [hsame.location]
    rw [hsession, h.sessionId]

/-- The session whose number stands in the location, as the factories write it. -/
theorem tells_of_location [LawfulLongLongReading] (hmethod : request.method = signal.verb.method)
    (hlocation : request.location = sessionPath ++ .ofInt64 signal.sessionId) :
    request.Tells signal := by
  constructor
  · exact hmethod
  · have hprefix : sessionPath.isPrefixOf request.location = true := by
      rw [List.isPrefixOf_iff_prefix, hlocation]
      exact List.prefix_append _ _
    have hnumber : (NSString.ofInt64 signal.sessionId).tryParseAsDecimalNumber =
        some (some (signal.sessionId.toInt : ℚ)) := by
      rw [NSString.tryParseAsDecimalNumber,
        if_pos (LawfulLongLongReading.numberFromString_ofInt64 signal.sessionId),
        LawfulLongLongReading.decimalNumberWithString_ofInt64]
    have hlong : NSNumber.hasLongLongValue (some (signal.sessionId.toInt : ℚ)) = true :=
      NSNumber.hasLongLongValue_iff.mpr ⟨_, rfl⟩
    unfold tryGetSessionId
    rw [if_pos hprefix, hlocation, List.drop_left]
    simp only [(NSString.isTrimmed_ofInt64 signal.sessionId).trimWhitespace, hnumber, hlong, if_true]

end

/-- What the factories for requests with authentication add is well-formed, without a body. -/
theorem wellFormed_withAuthentication {method location token : NSString} (hmethod : IsWord method)
    (hlocation : IsWord location) (hresponse : ¬ "HTTP/".toList <+: method)
    (htrimmed : token.IsTrimmed) (hline : ∀ c ∈ token, c ≠ '\r' ∧ c ≠ '\n') :
    (httpRequestWithAuthentication method location none token).WellFormed := by
  have hentries : (httpRequestWithAuthentication method location none token).headers.entries =
      [⟨authorizationKey, token⟩] := rfl
  have hkey : authorizationKey.IsTrimmed ∧
      ∀ c ∈ authorizationKey, c ≠ ':' ∧ c ≠ '\r' ∧ c ≠ '\n' :=
    ⟨NSString.isTrimmed_of_forall (List.forall_iff_forall_mem.mp (by decide)),
      List.forall_iff_forall_mem.mp (by decide)⟩
  constructor
  · exact hmethod
  · exact hlocation
  · exact hresponse
  · intro entry hentry
    rw [hentries, List.mem_singleton] at hentry
    subst hentry
    exact hkey
  · intro entry hentry
    rw [hentries, List.mem_singleton] at hentry
    subst hentry
    exact ⟨htrimmed, hline⟩

theorem isWord_sessionLocation (sessionId : Int64) : IsWord (sessionPath ++ .ofInt64 sessionId) := by
  have hpath : ∀ c ∈ sessionPath, c ≠ ' ' ∧ c ≠ '\r' ∧ c ≠ '\n' :=
    List.forall_iff_forall_mem.mp (by decide)
  constructor
  · exact List.append_ne_nil_of_left_ne_nil (by decide) _
  · intro c hc
    rcases List.mem_append.mp hc with hword | hnumber
    · exact hpath c hword
    · rcases NSString.mem_ofInt64 hnumber with rfl | ⟨hlow, _⟩
      · decide
      · refine ⟨?_, ?_, ?_⟩ <;> rintro rfl <;> exact absurd hlow (by decide)

section
variable [CryptoTools]

/-- The token is a word and a text in base 64. -/
theorem token_of_computeOtpAuthorizationToken (localNumber password : NSString) (counter : Int64) :
    (computeOtpAuthorizationToken localNumber counter password).IsTrimmed ∧
      ∀ c ∈ computeOtpAuthorizationToken localNumber counter password, c ≠ '\r' ∧ c ≠ '\n' := by
  obtain ⟨data, htoken, hdata⟩ : ∃ data : NSData,
      computeOtpAuthorizationToken localNumber counter password =
        "OTP ".toList ++ data.encodedAsBase64 ∧ data ≠ [] := by
    refine ⟨_, rfl, ?_⟩
    rw [ne_eq, NSString.encodedAsUtf8_eq_nil]
    simp
  have hchars : ∀ c ∈ data.encodedAsBase64,
      NSString.isWhitespace c = false ∧ c ≠ '\r' ∧ c ≠ '\n' := by
    have hbase : ∀ c ∈ NSData.base64Chars, NSString.isWhitespace c = false ∧ c ≠ '\r' ∧ c ≠ '\n' :=
      List.forall_iff_forall_mem.mp (by decide +kernel)
    intro c hc
    rcases NSData.mem_encodedAsBase64 hc with hword | rfl
    · exact hbase c hword
    · decide
  have hne : data.encodedAsBase64 ≠ [] := by
    intro hempty
    exact hdata (NSData.encodedAsBase64_inj (hempty.trans (by decide)))
  rw [htoken]
  constructor
  · constructor
    · intro c hc
      obtain rfl : 'O' = c := Option.some.inj hc
      decide
    · intro c hc
      rw [List.getLast?_append_of_ne_nil _ hne] at hc
      exact (hchars c (List.mem_of_mem_getLast? hc)).1
  · intro c hc
    rcases List.mem_append.mp hc with hword | hdigits
    · have hotp : ∀ c ∈ "OTP ".toList, c ≠ '\r' ∧ c ≠ '\n' :=
        List.forall_iff_forall_mem.mp (by decide)
      exact hotp c hword
    · exact (hchars c hdigits).2

variable {signal : SessionSignal} {request : HttpRequest} {otp : OtpCredentials}

theorem httpRequestWithSessionId_eq_ok {method : NSString} {sessionId : Int64}
    (h : httpRequestWithSessionId method sessionId otp = .ok request) :
    ∃ localNumber password, request = httpRequestWithAuthentication method
      (sessionPath ++ .ofInt64 sessionId) none
      (computeOtpAuthorizationToken localNumber otp.counter password) := by
  obtain ⟨password, _, h⟩ := Throws.bind_eq_ok.mp h
  obtain ⟨localNumber, _, h⟩ := Throws.bind_eq_ok.mp h
  exact ⟨localNumber, password, (Except.ok.inj h).symm⟩

theorem wellFormed_of_signal
    (h : httpRequestWithSessionId signal.verb.method signal.sessionId otp = .ok request) :
    request.WellFormed := by
  obtain ⟨localNumber, password, rfl⟩ := httpRequestWithSessionId_eq_ok h
  obtain ⟨htrimmed, hline⟩ := token_of_computeOtpAuthorizationToken localNumber password otp.counter
  have hmethod : IsWord signal.verb.method ∧ ¬ "HTTP/".toList <+: signal.verb.method := by
    cases signal.verb with
    | _ => exact ⟨⟨by decide, List.forall_iff_forall_mem.mp (by decide)⟩, by decide⟩
  exact wellFormed_withAuthentication hmethod.1 (isWord_sessionLocation _) hmethod.2 htrimmed hline

variable [NumberReading] [LawfulLongLongReading]

theorem tells_of_signal
    (h : httpRequestWithSessionId signal.verb.method signal.sessionId otp = .ok request) :
    request.Tells signal := by
  obtain ⟨localNumber, password, rfl⟩ := httpRequestWithSessionId_eq_ok h
  exact tells_of_location rfl rfl

/-- The requests have been made for these signals, each with credentials of its own. -/
abbrev MadeFor (signals : List SessionSignal) (requests : List HttpRequest) : Prop :=
  List.Forall₂ (fun signal request => request.serialize.length < 2 ^ 64 ∧
    ∃ otp, httpRequestWithSessionId signal.verb.method signal.sessionId otp = .ok request)
    signals requests

theorem carries_of_madeFor {signals : List SessionSignal} {requests : List HttpRequest}
    (h : MadeFor signals requests) : ∃ received : List HttpRequest,
      List.Forall₂ messageExtractor.Carries (requests.map serialize) (received.map .request) ∧
        List.Forall₂ (fun signal request => Tells request signal) signals received := by
  induction h with
  | nil => exact ⟨[], .nil, .nil⟩
  | @cons signal request signals requests hfirst _ ih =>
    obtain ⟨hlength, otp, hmade⟩ := hfirst
    obtain ⟨received, hlaterCarries, hlaterTells⟩ := ih
    have hwellFormed : request.WellFormed := wellFormed_of_signal hmade
    have hbody : ∀ body ∈ request.optionalBody, ∀ c ∈ body, c.toNat < 128 := by
      obtain ⟨_, _, rfl⟩ := httpRequestWithSessionId_eq_ok hmade
      intro body hbody
      cases hbody
    obtain ⟨first, hcarries, hsame⟩ := carries hwellFormed hlength hbody
    exact ⟨first :: received, .cons hcarries hlaterCarries,
      .cons ((tells_of_signal hmade).of_same hsame) hlaterTells⟩

/-- What the three tests make of a request is this signal, and nothing else. -/
structure IsTakenFor (request : HttpRequest) (signal : SessionSignal) : Prop where
  notKeepAlive : request.isKeepAlive = false
  ringing : ∀ sessionId, request.isRingingForSession sessionId = true ↔ signal = ⟨.ring, sessionId⟩
  hangup : ∀ sessionId, request.isHangupForSession sessionId = true ↔ signal = ⟨.hangup, sessionId⟩
  busy : ∀ sessionId, request.isBusyForSession sessionId = true ↔ signal = ⟨.busy, sessionId⟩

omit [CryptoTools] [LawfulLongLongReading] in
theorem Tells.isTakenFor (h : request.Tells signal) : request.IsTakenFor signal := by
  have htells (signal' : SessionSignal) : request.Tells signal' ↔ signal = signal' := by
    constructor
    · exact h.unique
    · rintro rfl
      exact h
  constructor
  · exact h.not_keepAlive
  · exact fun sessionId => isRingingForSession_iff.trans (htells _)
  · exact fun sessionId => isHangupForSession_iff.trans (htells _)
  · exact fun sessionId => isBusyForSession_iff.trans (htells _)

/-- However the network splits the bytes of the signals: those whose bytes have come are told, each of
its own session and of no other, and what is left is the beginning of the next. -/
theorem told_of_received {signals : List SessionSignal} {requests : List HttpRequest}
    {reads : List NSData} (hmade : MadeFor signals requests)
    (hreads : reads.flatten <+: (requests.map serialize).flatten) :
    ∃ n rest, ∃ received : List HttpRequest,
      (HttpSocket.receive reads).handled = received.map .request ∧
      List.Forall₂ (fun signal request => IsTakenFor request signal) (signals.take n) received ∧
      reads.flatten = ((requests.take n).map serialize).flatten ++ rest ∧
      (∀ next ∈ requests[n]?, rest.length < next.serialize.length) ∧
      (reads.flatten = (requests.map serialize).flatten → signals.length ≤ n) := by
  obtain ⟨received, hcarries, htells⟩ := carries_of_madeFor hmade
  obtain ⟨n, rest, houtcome, hsplit, hnext, _⟩ := Extractor.outcome_of_carries hcarries hreads
  refine ⟨n, rest, received.take n, ?_, ?_, ?_, ?_, ?_⟩
  · rw [(receive_eq_outcome reads).1, houtcome, List.map_take]
  · exact (List.forall₂_take n htells).imp fun _ _ h => h.isTakenFor
  · rw [List.map_take]
    exact hsplit
  · intro next hmem
    exact hnext next.serialize (by rw [List.getElem?_map]; exact Option.mem_map_of_mem _ hmem)
  · intro hwhole
    have hlength : (requests.map serialize).length ≤ n :=
      Extractor.length_le_of_split (hwhole.symm.trans hsplit) hnext
    rw [List.length_map] at hlength
    rw [List.Forall₂.length_eq hmade]
    exact hlength

end
end HttpRequest

/-- A device that reads an integer in ASCII digits, with a minus sign or without. -/
@[reducible] def signedDigitReading : NumberReading where
  numberFromString text :=
    match text with
    | '-' :: digits => digitReading.numberFromString digits
    | digits => digitReading.numberFromString digits
  decimalNumberWithString text :=
    match text with
    | '-' :: digits => (digitReading.decimalNumberWithString digits).map (- ·)
    | digits => digitReading.decimalNumberWithString digits

theorem lawful_signedDigitReading : @LawfulLongLongReading signedDigitReading := by
  have hplain (n : ℕ) : digitReading.numberFromString (.ofNumber n) = true ∧
      digitReading.decimalNumberWithString (.ofNumber n) = some (n : ℚ) := by
    have hdigits : (NSString.ofNumber n).all Char.isDigit = true :=
      List.all_eq_true.mpr fun _ => NSString.isDigit_of_mem_ofNumber
    have hne : decide (NSString.ofNumber n ≠ []) = true :=
      decide_eq_true (NSString.ofNumber_ne_nil n)
    constructor
    · exact Bool.and_eq_true_iff.mpr ⟨hne, hdigits⟩
    · have hvalue : digitReading.decimalNumberWithString (.ofNumber n) =
          some (Nat.ofDigitChars 10 (NSString.ofNumber n) 0 : ℚ) := if_pos hdigits
      rw [hvalue, NSString.ofDigitChars_ofNumber]
  have hunsigned (n : ℕ) : signedDigitReading.numberFromString (.ofNumber n) = true ∧
      signedDigitReading.decimalNumberWithString (.ofNumber n) = some (n : ℚ) := by
    obtain ⟨c, digits, hcons⟩ := List.exists_cons_of_ne_nil (NSString.ofNumber_ne_nil n)
    have hsign : c ≠ '-' := by
      rintro rfl
      have hmem : '-' ∈ NSString.ofNumber n := hcons ▸ List.mem_cons_self
      exact NSString.notMem_ofNumber (by decide) hmem
    have hn := hplain n
    rw [hcons] at hn ⊢
    unfold signedDigitReading
    dsimp only
    split
    case h_1 heq => exact absurd (List.cons.inj heq).1 hsign
    case h_2 => exact hn
  have hsigned (n : Int64) : signedDigitReading.numberFromString (.ofInt64 n) = true ∧
      signedDigitReading.decimalNumberWithString (.ofInt64 n) = some (n.toInt : ℚ) := by
    unfold NSString.ofInt64
    split_ifs with hnegative
    · obtain ⟨hnumber, hvalue⟩ := hplain n.toInt.natAbs
      have habs : -((n.toInt.natAbs : ℤ) : ℚ) = (n.toInt : ℚ) := by
        rw [← Rat.intCast_neg]
        congr 1
        omega
      have hminus : signedDigitReading.decimalNumberWithString
          ('-' :: NSString.ofNumber n.toInt.natAbs) = some (-((n.toInt.natAbs : ℤ) : ℚ)) :=
        congrArg (Option.map (- ·)) hvalue
      rw [hminus, habs]
      exact ⟨hnumber, rfl⟩
    · obtain ⟨hnumber, hvalue⟩ := hunsigned n.toInt.natAbs
      refine ⟨hnumber, ?_⟩
      have habs : ((n.toInt.natAbs : ℤ) : ℚ) = (n.toInt : ℚ) := by
        congr 1
        omega
      rw [hvalue]
      exact congrArg some habs
  let _ := signedDigitReading
  exact {
    numberFromString_ofNumber := fun n => (hunsigned n.toNat).1
    decimalNumberWithString_ofNumber := fun n => (hunsigned n.toNat).2
    numberFromString_ofInt64 := fun n => (hsigned n).1
    decimalNumberWithString_ofInt64 := fun n => (hsigned n).2 }

section Sample
attribute [local instance] signedDigitReading lawful_signedDigitReading
  SignalKeyingStorage.otpCryptoTools

/-- The second number is below zero. -/
def sampleSignals : List SessionSignal := [⟨.ring, 2357⟩, ⟨.hangup, -8⟩]

def sampleCredentials (counter : Int64) : HttpRequest.OtpCredentials :=
  ⟨some "+19025555555".toList, some "pw".toList, counter⟩

def sampleRequests : List HttpRequest :=
  sampleSignals.zipIdx.map fun (signal, i) =>
    HttpRequest.httpRequestWithAuthentication signal.verb.method
      (HttpRequest.sessionPath ++ .ofInt64 signal.sessionId) none
      (HttpRequest.computeOtpAuthorizationToken "+19025555555".toList (Int64.ofNat i) "pw".toList)

/-- The first read ends within the second request. -/
def sampleSignalReads : List NSData :=
  [List.take 120 (sampleRequests.map HttpRequest.serialize).flatten,
    List.drop 120 (sampleRequests.map HttpRequest.serialize).flatten]

theorem told_of_sampleReads : ∃ n rest, ∃ received : List HttpRequest,
    (HttpSocket.receive sampleSignalReads).handled = received.map .request ∧
    List.Forall₂ (fun signal request => HttpRequest.IsTakenFor request signal)
      (sampleSignals.take n) received ∧
    sampleSignalReads.flatten =
      ((sampleRequests.take n).map HttpRequest.serialize).flatten ++ rest ∧
    (∀ next ∈ sampleRequests[n]?, rest.length < next.serialize.length) ∧
    (sampleSignalReads.flatten = (sampleRequests.map HttpRequest.serialize).flatten →
      sampleSignals.length ≤ n) := by
  have hmade : HttpRequest.MadeFor sampleSignals sampleRequests :=
    .cons ⟨by decide +kernel, sampleCredentials 0, rfl⟩
      (.cons ⟨by decide +kernel, sampleCredentials 1, rfl⟩ .nil)
  have hreads : sampleSignalReads.flatten <+: (sampleRequests.map HttpRequest.serialize).flatten := by
    have hflatten : sampleSignalReads.flatten =
        (sampleRequests.map HttpRequest.serialize).flatten := by
      rw [sampleSignalReads, List.flatten_cons, List.flatten_cons, List.flatten_nil, List.append_nil,
        List.take_append_drop]
    rw [hflatten]
  exact HttpRequest.told_of_received hmade hreads

end Sample
end Http
end SignalIOS
