import SignalIOS.Http.HttpParser

/-! Requests that are parsed back from their bytes. The factories count the body in UTF-16, and the
parser takes as many bytes. -/
namespace SignalIOS.Http
open SignalIOS.Lib

/-- A text that can stand between the spaces of a line. -/
structure IsWord (text : NSString) : Prop where
  ne_nil : text ≠ []
  char : ∀ c ∈ text, c ≠ ' ' ∧ c ≠ '\r' ∧ c ≠ '\n'

namespace HttpRequest

/-- What keeps the parts of a request apart. -/
structure WellFormed (request : HttpRequest) : Prop where
  method : IsWord request.method
  location : IsWord request.location
  not_response : ¬ "HTTP/".toList <+: request.method
  key : ∀ entry ∈ request.headers.entries, NSString.IsTrimmed entry.1 ∧
    ∀ c ∈ entry.1, c ≠ ':' ∧ c ≠ '\r' ∧ c ≠ '\n'
  value : ∀ entry ∈ request.headers.entries, NSString.IsTrimmed entry.2 ∧
    ∀ c ∈ entry.2, c ≠ '\r' ∧ c ≠ '\n'

/-- The same method, location, headers and body. -/
structure Same (request other : HttpRequest) : Prop where
  method : request.method = other.method
  location : request.location = other.location
  headers : ∀ key, request.headers.lookup key = other.headers.lookup key
  optionalBody : request.optionalBody = other.optionalBody

def requestLine (request : HttpRequest) : NSString :=
  request.method ++ ' ' :: (request.location ++ ' ' :: "HTTP/1.0".toList)

def headerLine (entry : Sigma fun _ : NSString => NSString) : NSString :=
  entry.1 ++ ':' :: (' ' :: entry.2)

def lines (request : HttpRequest) : List NSString :=
  request.requestLine :: request.headers.entries.map headerLine

def fullHeader (request : HttpRequest) : NSString := "\r\n".toList.intercalate request.lines

variable {request : HttpRequest}

theorem toHttp_eq (request : HttpRequest) : request.toHttp =
    request.fullHeader ++ "\r\n\r\n".toList ++ request.optionalBody.getD [] := by
  have hlines := @append_flatMap_append _ "\r\n".toList request.requestLine
    (request.headers.entries.map headerLine)
  have hempty : ("\r\n\r\n".toList : NSString) = "\r\n".toList ++ "\r\n".toList := by decide
  have hspace : " ".toList = [' '] := by decide
  have hcolon : ": ".toList = [':', ' '] := by decide
  have hversion : " HTTP/1.0\r\n".toList = ' ' :: ("HTTP/1.0".toList ++ "\r\n".toList) := by decide
  rw [fullHeader, lines, hempty, ← List.append_assoc, ← hlines, List.flatMap_map, toHttp, hversion,
    hspace, hcolon]
  simp only [requestLine, headerLine, List.append_assoc, List.cons_append, List.nil_append]

theorem serialize_eq (request : HttpRequest) : request.serialize =
    request.fullHeader.encodedAsUtf8 ++ (crlf ++ crlf) ++
      NSString.encodedAsUtf8 (request.optionalBody.getD []) := by
  have hempty : NSString.encodedAsUtf8 "\r\n\r\n".toList = crlf ++ crlf := by decide
  rw [serialize, toHttp_eq, NSString.encodedAsUtf8_append, NSString.encodedAsUtf8_append, hempty]

/-- A line holds no line break, and something. -/
theorem WellFormed.line (h : request.WellFormed) {line : NSString} (hline : line ∈ request.lines) :
    line ≠ [] ∧ '\r' ∉ line := by
  rw [lines, List.mem_cons, List.mem_map] at hline
  rcases hline with rfl | ⟨entry, hentry, rfl⟩
  · constructor
    · simp [requestLine]
    · have hversion : '\r' ∉ "HTTP/1.0".toList := by decide
      simp only [requestLine, List.mem_append, List.mem_cons, not_or]
      exact ⟨fun hc => (h.method.char _ hc).2.1 rfl, by decide, fun hc => (h.location.char _ hc).2.1 rfl,
        by decide, hversion⟩
  · constructor
    · simp [headerLine]
    · simp only [headerLine, List.mem_append, List.mem_cons, not_or]
      exact ⟨fun hc => ((h.key entry hentry).2 _ hc).2.1 rfl, by decide, by decide,
        fun hc => ((h.value entry hentry).2 _ hc).1 rfl⟩

/-- The first empty line is behind the headers. -/
theorem WellFormed.firstAt (h : request.WellFormed) :
    FirstAt (crlf ++ crlf) request.serialize request.fullHeader.encodedAsUtf8.length := by
  have hcrlf : NSString.encodedAsUtf8 "\r\n".toList = crlf := by decide
  rw [serialize_eq, fullHeader, NSString.encodedAsUtf8_intercalate, hcrlf]
  apply firstAt_intercalate
  · intro line hline
    obtain ⟨text, htext, rfl⟩ := List.mem_map.mp hline
    obtain ⟨hne, hcr⟩ := h.line htext
    constructor
    · rwa [ne_eq, NSString.encodedAsUtf8_eq_nil]
    · exact fun hmem => hcr ((NSString.mem_encodedAsUtf8 (by decide)).mp hmem)
  · decide
  · simp [lines]

theorem WellFormed.lineChecks (h : request.WellFormed) : LineChecks request.serialize := by
  have hcrlf := crlf_infix_of_firstAt h.firstAt
  have hline : "HTTP".toList <:+: request.requestLine :=
    ⟨request.method ++ ' ' :: (request.location ++ [' ']), "/1.0".toList, by
      simp [requestLine]⟩
  constructor
  · intro _
    have hheader : "HTTP".toList <:+: request.fullHeader :=
      hline.trans (prefix_intercalate request.requestLine _).isInfix
    obtain ⟨before, behind, hinfix⟩ := hheader
    have hhttp : NSString.encodedAsUtf8 "HTTP".toList = http := by decide
    rw [serialize_eq, ← hinfix, NSString.encodedAsUtf8_append, NSString.encodedAsUtf8_append, hhttp]
    refine ⟨NSString.encodedAsUtf8 before, NSString.encodedAsUtf8 behind ++
      (crlf ++ crlf ++ NSString.encodedAsUtf8 (request.optionalBody.getD [])), ?_⟩
    simp only [List.append_assoc]
  · intro _
    exact hcrlf

/-- The headers that are read from their lines. -/
def readHeaders (request : HttpRequest) : Headers :=
  request.headers.entries.foldl (fun headers entry => headers.insert entry.1 entry.2) ∅

theorem readHeaderLine_headerLine (headers : Headers) {entry : Sigma fun _ : NSString => NSString}
    (hkey : NSString.IsTrimmed entry.1 ∧ ':' ∉ entry.1) (hvalue : NSString.IsTrimmed entry.2) :
    readHeaderLine headers (headerLine entry) = .ok (headers.insert entry.1 entry.2) := by
  have hcolon : ":".toList = [':'] := by decide
  have hne : splitOn [':'] (' ' :: entry.2) ≠ [] := splitOn_ne_nil
  obtain ⟨part, parts, hparts⟩ := List.exists_cons_of_ne_nil hne
  have hsplit : (headerLine entry).componentsSeparatedByString ":".toList =
      entry.1 :: part :: parts := by
    rw [← hparts, NSString.componentsSeparatedByString, hcolon, headerLine]
    exact splitOn_append hkey.2
  unfold readHeaderLine
  rw [hsplit]
  have hdrop : (headerLine entry).drop (entry.1.length + 1) = ' ' :: entry.2 := by
    rw [headerLine, ← List.drop_drop, List.drop_left]
    rfl
  dsimp only
  rw [hdrop, hkey.1.trimWhitespace, hvalue.trimWhitespace_space]

theorem lookup_foldl_insert (entries : List (Sigma fun _ : NSString => NSString))
    (hentries : entries.NodupKeys) (headers : Headers) (key : NSString) :
    (entries.foldl (fun headers entry => headers.insert entry.1 entry.2) headers).lookup key =
      (entries.dlookup key).or (headers.lookup key) := by
  induction entries generalizing headers with
  | nil => rfl
  | cons entry entries ih =>
    have hnotMem := List.notMem_keys_of_nodupKeys_cons hentries
    rw [List.foldl_cons, ih (List.nodupKeys_of_nodupKeys_cons hentries)]
    by_cases hkey : key = entry.1
    · subst hkey
      rw [List.dlookup_eq_none.mpr hnotMem, AList.lookup_insert]
      exact congrArg (Option.or · _) (List.dlookup_cons_eq entries entry.1 entry.2).symm
    · rw [AList.lookup_insert_ne hkey, List.dlookup_cons_ne _ _ hkey]

/-- Whatever order they are sent in, the headers are the same. -/
theorem lookup_readHeaders (request : HttpRequest) (key : NSString) :
    request.readHeaders.lookup key = request.headers.lookup key := by
  rw [readHeaders, lookup_foldl_insert _ request.headers.nodupKeys, AList.lookup_empty,
    Option.or_none]
  rfl

theorem foldlM_readHeaderLine {entries : List (Sigma fun _ : NSString => NSString)}
    (h : ∀ entry ∈ entries,
      (NSString.IsTrimmed entry.1 ∧ ':' ∉ entry.1) ∧ NSString.IsTrimmed entry.2)
    (headers : Headers) :
    (entries.map headerLine).foldlM readHeaderLine headers =
      .ok (entries.foldl (fun headers entry => headers.insert entry.1 entry.2) headers) := by
  induction entries generalizing headers with
  | nil => rfl
  | cons entry entries ih =>
    have hentry := h entry List.mem_cons_self
    rw [List.map_cons, List.foldlM_cons, readHeaderLine_headerLine headers hentry.1 hentry.2]
    exact ih (fun entry hmem => h entry (List.mem_cons_of_mem _ hmem)) _

/-- The head that a request is sent with. -/
def head (request : HttpRequest) : Head where
  first := request.method
  second := request.location
  others := ["HTTP/1.0".toList]
  headers := request.readHeaders
  contentLengthParsed := request.optionalBody.map fun body => UInt64.ofNat body.utf16Length

theorem length_serialize (request : HttpRequest) :
    request.serialize.length = request.fullHeader.encodedAsUtf8.length + 4 +
      (NSString.encodedAsUtf8 (request.optionalBody.getD [])).length := by
  rw [serialize_eq, List.length_append, List.length_append]
  rfl

theorem utf16Length_lt (hlength : request.serialize.length < 2 ^ 64) :
    ∀ body ∈ request.optionalBody, NSString.utf16Length body < 2 ^ 64 := by
  intro body hbody
  have hle := NSString.utf16Length_le_length body
  rw [length_serialize, hbody, Option.getD_some] at hlength
  omega

theorem contentLength_head (hlength : request.serialize.length < 2 ^ 64) :
    request.head.contentLength = (request.optionalBody.getD []).utf16Length := by
  have hbound := utf16Length_lt hlength
  unfold Head.contentLength head
  cases hbody : request.optionalBody with
  | none => rfl
  | some body => exact UInt64.toNat_ofNat_of_lt' (hbound body hbody)

/-- Where the units are as many as the bytes, the content is the body. -/
theorem content_head (hlength : request.serialize.length < 2 ^ 64)
    (hunits : (request.optionalBody.getD []).utf16Length =
      (NSString.encodedAsUtf8 (request.optionalBody.getD [])).length) :
    request.head.content request.serialize (request.fullHeader.encodedAsUtf8.length + 4) =
      request.optionalBody.map NSString.encodedAsUtf8 := by
  have hdrop : List.drop (request.fullHeader.encodedAsUtf8.length + 4) request.serialize =
      NSString.encodedAsUtf8 (request.optionalBody.getD []) := by
    rw [serialize_eq]
    exact List.drop_left' (by rw [List.length_append]; rfl)
  have hbound := utf16Length_lt hlength
  unfold Head.content
  rw [hdrop, head]
  cases hbody : request.optionalBody with
  | none => rfl
  | some body =>
    have hnumber : (UInt64.ofNat (NSString.utf16Length body)).toNat = body.utf16Length :=
      UInt64.toNat_ofNat_of_lt' (hbound body hbody)
    rw [hbody, Option.getD_some] at hunits
    simp only [Option.map_some, Option.getD_some]
    rw [hnumber, hunits, List.take_length]

section
variable [NumberReading]

theorem WellFormed.readHead [LawfulNumberReading] (h : request.WellFormed)
    (hlength : ∀ body ∈ request.optionalBody, NSString.utf16Length body < 2 ^ 64) :
    readHead request.fullHeader = .ok request.head := by
  have hlines : request.fullHeader.componentsSeparatedByString "\r\n".toList = request.lines :=
    splitOn_intercalate (fun line hline => (h.line hline).2) (by simp [lines])
  have hparts : request.requestLine.componentsSeparatedByString " ".toList =
      [request.method, request.location, "HTTP/1.0".toList] := by
    have hspace : " ".toList = [' '] := by decide
    have hversion : ' ' ∉ "HTTP/1.0".toList := by decide
    rw [NSString.componentsSeparatedByString, hspace, requestLine]
    refine (splitOn_append fun hc => (h.method.char _ hc).1 rfl).trans ?_
    refine congrArg (request.method :: ·) ?_
    refine (splitOn_append fun hc => (h.location.char _ hc).1 rfl).trans ?_
    exact congrArg (request.location :: ·) (splitOn_of_notMem hversion)
  have hheaders : (request.headers.entries.map headerLine).foldlM readHeaderLine ∅ =
      .ok request.readHeaders :=
    foldlM_readHeaderLine (fun entry hentry =>
      ⟨⟨(h.key entry hentry).1, fun hc => ((h.key entry hentry).2 _ hc).1 rfl⟩,
        (h.value entry hentry).1⟩) ∅
  have hparsed : (request.readHeaders.lookup contentLengthKey).bind
      NSString.tryParseAsUnsignedInteger = request.head.contentLengthParsed := by
    rw [lookup_readHeaders, request.contentLength, head]
    cases hbody : request.optionalBody with
    | none => rfl
    | some body =>
      have hnumber : (UInt64.ofNat (NSString.utf16Length body)).toNat = body.utf16Length :=
        UInt64.toNat_ofNat_of_lt' (hlength body hbody)
      have hread := NSString.tryParseAsUnsignedInteger_ofNumber
        (UInt64.ofNat (NSString.utf16Length body))
      rw [hnumber] at hread
      exact hread
  have hconsistent : request.readHeaders.lookup contentLengthKey = none ↔
      request.head.contentLengthParsed = none := by
    rw [lookup_readHeaders, request.contentLength, head]
    cases request.optionalBody <;> simp
  unfold Http.readHead
  rw [hlines, lines]
  dsimp only
  rw [hparts]
  dsimp only
  rw [hheaders]
  dsimp only [bind, Except.bind]
  rw [hparsed, checkOperation, if_pos hconsistent]
  rfl

theorem httpRequestFromData_eq_ok {data : NSData} : httpRequestFromData data = .ok request ↔
    tryExtractFromPartialData data = .ok (some (.request request, data.length)) := by
  unfold httpRequestFromData
  rw [Throws.bind_eq_ok]
  constructor
  · intro ⟨extracted, hextract, h⟩
    match extracted with
    | some (.request request', requestSize) =>
      obtain ⟨_, hsize, h⟩ := Throws.bind_eq_ok.mp h
      cases h
      rw [hextract, checkOperation_eq_ok.mp hsize]
    | some (.response _, _) => cases h
    | none => cases h
  · intro h
    refine ⟨_, h, ?_⟩
    dsimp only
    rw [checkOperation, if_pos rfl]
    rfl

/-- The bytes of the request are used up, and what is made of them is the same request. -/
def RoundTrips (request : HttpRequest) : Prop :=
  ∃ request', tryExtractFromPartialData request.serialize =
      .ok (some (.request request', request.serialize.length)) ∧
    httpRequestFromData request.serialize = .ok request' ∧ request'.Same request

theorem WellFormed.tryReadHead [LawfulNumberReading] (h : request.WellFormed)
    (hlength : request.serialize.length < 2 ^ 64) :
    tryReadHead request.serialize =
      .ok (some (request.head, request.fullHeader.encodedAsUtf8.length + 4)) := by
  apply tryReadHead_eq_some.mpr
  refine ⟨_, rfl, h.lineChecks, h.firstAt, request.fullHeader, ?_, h.readHead (utf16Length_lt hlength)⟩
  rw [serialize_eq, List.append_assoc, List.take_left]

/-- The parser makes the same request of the same content. -/
theorem WellFormed.message (h : request.WellFormed) :
    ∃ request', request.head.message (request.optionalBody.map NSString.encodedAsUtf8) =
      .ok (.request request') ∧ request'.Same request := by
  have hresponse : request.head.isResponse = false := by
    rw [Bool.eq_false_iff, ne_eq, Head.isResponse, List.isPrefixOf_iff_prefix]
    exact h.not_response
  have hlookup : request.readHeaders.lookup contentLengthKey =
      request.optionalBody.map fun body => .ofNumber body.utf16Length := by
    rw [lookup_readHeaders, request.contentLength]
  refine ⟨⟨request.method, request.location, request.optionalBody, request.readHeaders, hlookup⟩,
    ?_, ⟨rfl, rfl, lookup_readHeaders request, rfl⟩⟩
  have hmade : request.head.request (request.optionalBody.map NSString.encodedAsUtf8) =
      .ok ⟨request.method, request.location, request.optionalBody, request.readHeaders, hlookup⟩ := by
    unfold Head.request
    rw [NSData.mapM_decodedAsUtf8_eq_ok.mpr rfl]
    exact httpRequestWithMethod_of_eq hlookup
  unfold Head.message
  rw [hresponse, hmade]
  rfl

section
variable [LawfulNumberReading] (h : request.WellFormed) (hlength : request.serialize.length < 2 ^ 64)
include h hlength

theorem WellFormed.roundTrips_of_units
    (hunits : (request.optionalBody.getD []).utf16Length =
      (NSString.encodedAsUtf8 (request.optionalBody.getD [])).length) : request.RoundTrips := by
  have hread := h.tryReadHead hlength
  have hheader := headerLength_le hread
  have hcontent := contentLength_head hlength
  have hserialize := length_serialize request
  obtain ⟨request', hmessage, hsame⟩ := h.message
  have hextract : tryExtractFromPartialData request.serialize =
      .ok (some (.request request', request.serialize.length)) := by
    apply tryExtractFromPartialData_eq_some.mpr
    refine ⟨_, _, hread, (Head.tryExtract_eq_some hheader).mpr ?_⟩
    rw [content_head hlength hunits]
    exact ⟨by omega, by omega, hmessage, by omega⟩
  exact ⟨request', hextract, httpRequestFromData_eq_ok.mpr hextract, hsame⟩

/-- If all the bytes are used, those of the body are as many as the units. -/
theorem WellFormed.units_of_roundTrips (hround : request.RoundTrips) :
    (request.optionalBody.getD []).utf16Length =
      (NSString.encodedAsUtf8 (request.optionalBody.getD [])).length := by
  have hread := h.tryReadHead hlength
  have hcontent := contentLength_head hlength
  have hserialize := length_serialize request
  obtain ⟨request', hextract, _, _⟩ := hround
  obtain ⟨head, headerLength, hread', hextract⟩ := tryExtractFromPartialData_eq_some.mp hextract
  rw [hread] at hread'
  cases hread'
  obtain ⟨_, _, _, hused⟩ := (Head.tryExtract_eq_some (headerLength_le hread)).mp hextract
  omega

/-- A request comes back exactly if its body is in ASCII, where bytes and UTF-16 code units are
equally many. -/
theorem roundTrips_iff_ascii :
    request.RoundTrips ↔ ∀ body ∈ request.optionalBody, ∀ c ∈ body, c.toNat < 128 := by
  have hascii : (∀ body ∈ request.optionalBody, ∀ c ∈ body, c.toNat < 128) ↔
      (request.optionalBody.getD []).utf16Length =
        (NSString.encodedAsUtf8 (request.optionalBody.getD [])).length := by
    rw [NSString.utf16Length_eq_length]
    cases request.optionalBody <;> simp
  rw [hascii]
  constructor
  · exact h.units_of_roundTrips hlength
  · exact h.roundTrips_of_units hlength

end
end

/-- What the factory for requests without authentication adds is well-formed. -/
theorem wellFormed_unauthenticated {method location : NSString} (hmethod : IsWord method)
    (hlocation : IsWord location) (hresponse : ¬ "HTTP/".toList <+: method)
    (optionalBody : Option NSString) :
    (httpRequestUnauthenticatedWithMethod method location optionalBody).WellFormed := by
  have hentry : ∀ entry ∈ (contentHeaders optionalBody).entries,
      ∃ body, entry = ⟨contentLengthKey, .ofNumber (NSString.utf16Length body)⟩ := by
    intro entry hmem
    cases optionalBody with
    | none => cases hmem
    | some body => exact ⟨body, List.mem_singleton.mp hmem⟩
  have htrimmed : NSString.IsTrimmed contentLengthKey := by
    constructor
    · intro c hc
      rw [← Option.mem_some.mp hc]
      decide
    · intro c hc
      rw [← Option.mem_some.mp hc]
      decide
  have hkey : ∀ c ∈ contentLengthKey, c ≠ ':' ∧ c ≠ '\r' ∧ c ≠ '\n' :=
    List.forall_iff_forall_mem.mp (by decide)
  constructor
  · exact hmethod
  · exact hlocation
  · exact hresponse
  · intro entry hmem
    obtain ⟨body, rfl⟩ := hentry entry hmem
    exact ⟨htrimmed, hkey⟩
  · intro entry hmem
    obtain ⟨body, rfl⟩ := hentry entry hmem
    refine ⟨NSString.isTrimmed_ofNumber _, fun c hc => ?_⟩
    have hdigit := NSString.digit_of_mem_ofNumber hc
    constructor <;> rintro rfl <;> exact absurd hdigit.1 (by decide)

section
attribute [local instance] digitReading lawful_digitReading

def put (body : String) : HttpRequest :=
  httpRequestUnauthenticatedWithMethod "PUT".toList "/".toList (some body.toList)

theorem wellFormed_put (body : String) : (put body).WellFormed :=
  wellFormed_unauthenticated ⟨by decide, List.forall_iff_forall_mem.mp (by decide)⟩
    ⟨by decide, List.forall_iff_forall_mem.mp (by decide)⟩ (by decide) _

theorem roundTrips_put_iff : (put "hi").serialize.length < 2 ^ 64 ∧
    ((put "hi").RoundTrips ↔ ∀ body ∈ (put "hi").optionalBody, ∀ c ∈ body, c.toNat < 128) :=
  ⟨by decide, roundTrips_iff_ascii (wellFormed_put "hi") (by decide)⟩

/-- `é` is one UTF-16 code unit, and two bytes. -/
theorem not_roundTrips_put : (put "é").WellFormed ∧ ¬ (put "é").RoundTrips := by
  refine ⟨wellFormed_put "é", fun hround => ?_⟩
  have hunits := (wellFormed_put "é").units_of_roundTrips (by decide) hround
  exact absurd hunits (by decide)

end
end HttpRequest
end SignalIOS.Http
