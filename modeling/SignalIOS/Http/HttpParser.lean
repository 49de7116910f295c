import SignalIOS.Http.HttpMessages

/-! The extraction of a message from the data received so far. -/
namespace SignalIOS.Http
open SignalIOS.Lib

abbrev crlf : NSData := encodedAsAscii "\r\n"

abbrev lf : NSData := encodedAsAscii "\n"

abbrev http : NSData := encodedAsAscii "HTTP"

/-- What is read of a message before its content. The first line has `others` behind its second
space. -/
structure Head where
  first : NSString
  second : NSString
  others : List NSString
  headers : Headers
  contentLengthParsed : Option UInt64

section
variable [NumberReading]

def readHeaderLine (headers : Headers) (headerLine : NSString) : Throws Headers :=
  match headerLine.componentsSeparatedByString ":".toList with
  | headerLinePart :: _ :: _ =>
    .ok (headers.insert headerLinePart.trimWhitespace
      (NSString.trimWhitespace (headerLine.drop (headerLinePart.length + 1))))
  | _ => .error (.operationFailed none)

def readHead (fullHeader : NSString) : Throws Head :=
  match fullHeader.componentsSeparatedByString "\r\n".toList with
  | [] => .error (.operationFailed none)
  | requestOrResponseLine :: headerLines =>
    match requestOrResponseLine.componentsSeparatedByString " ".toList with
    | first :: second :: third :: others => do
      let headers ← headerLines.foldlM readHeaderLine ∅
      let contentLengthText := headers.lookup contentLengthKey
      let contentLengthParsed := contentLengthText.bind NSString.tryParseAsUnsignedInteger
      checkOperation (contentLengthText = none ↔ contentLengthParsed = none)
      return ⟨first, second, third :: others, headers, contentLengthParsed⟩
    | _ => .error (.operationFailed none)

/-- The head that the data begins with, and the length of it with the empty line. -/
def tryReadHead (data : NSData) : Throws (Option (Head × ℕ)) := do
  -- first line should contain HTTP
  checkOperation (data.tryFindIndexOf crlf = none ∨ data.tryFindIndexOf http ≠ none)
  -- expecting \r\n line endings
  checkOperation (data.tryFindIndexOf lf = none ↔ data.tryFindIndexOf crlf = none)
  match data.tryFindIndexOf (crlf ++ crlf) with
  | none => return none
  | some tryHeaderLength =>
    let fullHeader ← (← data.take tryHeaderLength).decodedAsUtf8
    return some (← readHead fullHeader, tryHeaderLength + 4)

namespace Head

def contentLength (head : Head) : ℕ := (head.contentLengthParsed.getD 0).toNat

def optionalBodyData (head : Head) (data : NSData) (headerLength : ℕ) : Throws (Option NSData) :=
  match head.contentLengthParsed with
  | none => .ok none
  | some contentLength => return some (← data.subdataWithRange headerLength contentLength.toNat)

def isResponse (head : Head) : Bool := "HTTP/".toList.isPrefixOf head.first

def response (head : Head) (optionalBodyData : Option NSData) : Throws HttpResponse :=
  match head.second.tryParseAsUnsignedInteger with
  | none => .error (.operationFailed none)
  | some statusCode => .ok
    { statusCode := statusCode
      statusText := " ".toList.intercalate head.others
      headers := head.headers
      optionalBodyData := optionalBodyData }

def request (head : Head) (optionalBodyData : Option NSData) : Throws HttpRequest := do
  checkOperation (head.others.length = 1)
  let optionalBody ← optionalBodyData.mapM NSData.decodedAsUtf8
  HttpRequest.httpRequestWithMethod head.first head.second head.headers optionalBody

def message (head : Head) (optionalBodyData : Option NSData) : Throws HttpRequestOrResponse :=
  if head.isResponse then .response <$> head.response optionalBodyData
  else .request <$> head.request optionalBodyData

/-- What is done once there is a head. -/
def tryExtract (head : Head) (data : NSData) (headerLength : ℕ) :
    Throws (Option (HttpRequestOrResponse × ℕ)) :=
  -- The sum is an `NSUInteger`.
  if data.length < (headerLength + head.contentLength) % 2 ^ 64 then .ok none
  else do
    let optionalBodyData ← head.optionalBodyData data headerLength
    let message ← head.message optionalBodyData
    -- The content lies within the data, so here the sum did not wrap.
    return some (message, headerLength + head.contentLength)

end Head

/-- The message that the data begins with, and the length that it uses. -/
def tryExtractFromPartialData (data : NSData) : Throws (Option (HttpRequestOrResponse × ℕ)) := do
  match ← tryReadHead data with
  | none => return none
  | some (head, headerLength) => head.tryExtract data headerLength

def HttpRequest.httpRequestFromData (data : NSData) : Throws HttpRequest := do
  match ← tryExtractFromPartialData data with
  | some (.request request, requestSize) =>
    checkOperation (requestSize = data.length)
    return request
  | _ => .error (.operationFailed none)

end

section
variable {data : NSData} {i : ℕ}

/-- What the data must look like as a whole. -/
structure LineChecks (data : NSData) : Prop where
  http : crlf <:+: data → http <:+: data
  endings : lf <:+: data → crlf <:+: data

theorem lineChecks_iff : LineChecks data ↔
    (data.tryFindIndexOf crlf = none ∨ data.tryFindIndexOf http ≠ none) ∧
      (data.tryFindIndexOf lf = none ↔ data.tryFindIndexOf crlf = none) := by
  have hcrlf : data.tryFindIndexOf crlf ≠ none ↔ crlf <:+: data :=
    NSData.isSome_tryFindIndexOf (by decide)
  have hhttp : data.tryFindIndexOf http ≠ none ↔ http <:+: data :=
    NSData.isSome_tryFindIndexOf (by decide)
  have hlf : data.tryFindIndexOf lf ≠ none ↔ lf <:+: data :=
    NSData.isSome_tryFindIndexOf (by decide)
  have hinfix : crlf <:+: data → lf <:+: data := List.IsInfix.trans (by decide)
  rw [not_iff_comm] at hcrlf hlf
  rw [hhttp, ← hcrlf, ← hlf]
  constructor
  · intro h
    constructor
    · by_cases hc : crlf <:+: data
      · exact Or.inr (h.http hc)
      · exact Or.inl hc
    · exact not_congr ⟨h.endings, hinfix⟩
  · intro ⟨hhttp, hendings⟩
    constructor
    · intro hc
      exact hhttp.resolve_left (not_not_intro hc)
    · intro hl
      exact (not_iff_not.mp hendings).mp hl

theorem LineChecks.append (h : LineChecks data) (hcrlf : crlf <:+: data) (more : NSData) :
    LineChecks (data ++ more) := by
  constructor
  · intro _
    exact (h.http hcrlf).trans (List.infix_append [] data more)
  · intro _
    exact hcrlf.trans (List.infix_append [] data more)

theorem crlf_infix_of_firstAt (h : FirstAt (crlf ++ crlf) data i) : crlf <:+: data := by
  have hinfix := exists_firstAt_iff.mp ⟨i, h⟩
  exact List.IsInfix.trans (by decide) hinfix

namespace Head

variable {head : Head} {headerLength : ℕ}

/-- The content that the head announces. -/
def content (head : Head) (data : NSData) (headerLength : ℕ) : Option NSData :=
  head.contentLengthParsed.map fun contentLength =>
    (data.drop headerLength).take contentLength.toNat

theorem optionalBodyData_of_le (h : headerLength + head.contentLength ≤ data.length) :
    head.optionalBodyData data headerLength = .ok (head.content data headerLength) := by
  unfold optionalBodyData content contentLength at *
  cases hparsed : head.contentLengthParsed with
  | none => rfl
  | some contentLength =>
    rw [hparsed, Option.getD_some] at h
    dsimp only
    rw [NSData.subdataWithRange_eq_ok.mpr ⟨h, rfl⟩]
    rfl

theorem optionalBodyData_of_lt (hheader : headerLength ≤ data.length)
    (h : data.length < headerLength + head.contentLength) :
    head.optionalBodyData data headerLength = .error .nsRangeException := by
  unfold optionalBodyData contentLength at *
  cases hparsed : head.contentLengthParsed with
  | none =>
    rw [hparsed] at h
    exact absurd h (Nat.not_lt.mpr hheader)
  | some contentLength =>
    rw [hparsed, Option.getD_some] at h
    dsimp only
    rw [NSData.subdataWithRange, if_neg (Nat.not_le.mpr h)]
    rfl

theorem length_content {content : NSData} (hcontent : head.content data headerLength = some content)
    (h : headerLength + head.contentLength ≤ data.length) :
    content.length = head.contentLength := by
  unfold Head.content contentLength at *
  obtain ⟨contentLength, hparsed, rfl⟩ := Option.map_eq_some_iff.mp hcontent
  rw [hparsed, Option.getD_some] at h ⊢
  rw [List.length_take, List.length_drop]
  omega

theorem content_append (h : headerLength + head.contentLength ≤ data.length) (more : NSData) :
    head.content (data ++ more) headerLength = head.content data headerLength := by
  unfold content contentLength at *
  cases hparsed : head.contentLengthParsed with
  | none => rfl
  | some contentLength =>
    rw [hparsed, Option.getD_some] at h
    rw [Option.map_some, List.drop_append_of_le_length (by omega),
      List.take_append_of_le_length (by rw [List.length_drop]; omega)]
    rfl

end Head

end

section
variable [NumberReading] {data more : NSData} {head : Head} {headerLength used i : ℕ}
  {m : HttpRequestOrResponse} {e : Exception}

theorem tryReadHead_of_not_lineChecks (h : ¬ LineChecks data) :
    tryReadHead data = .error (.operationFailed none) := by
  rw [lineChecks_iff, not_and_or] at h
  unfold tryReadHead checkOperation
  rcases h with h | h
  · rw [if_neg h]
    rfl
  · rw [if_neg h]
    split_ifs <;> rfl

/-- The head of data that passes the checks is read where its first empty line is. -/
theorem tryReadHead_of_firstAt (h : LineChecks data) (hfirst : FirstAt (crlf ++ crlf) data i) :
    tryReadHead data = do
      let fullHeader ← NSData.decodedAsUtf8 (List.take i data)
      return some (← readHead fullHeader, i + 4) := by
  have hlength : i ≤ data.length := by
    have hle := hfirst.occurs.le_length (by decide)
    omega
  rw [lineChecks_iff] at h
  unfold tryReadHead checkOperation
  rw [if_pos h.1, if_pos h.2, (NSData.tryFindIndexOf_eq_some (by decide)).mpr hfirst]
  dsimp only [bind, Except.bind]
  rw [NSData.take_eq_ok.mpr ⟨hlength, rfl⟩]

theorem tryReadHead_of_no_emptyLine (h : LineChecks data) (hnone : ¬ crlf ++ crlf <:+: data) :
    tryReadHead data = .ok none := by
  rw [← NSData.isSome_tryFindIndexOf (by decide), not_not] at hnone
  rw [lineChecks_iff] at h
  unfold tryReadHead checkOperation
  rw [if_pos h.1, if_pos h.2, hnone]
  rfl

/-- Once the data passes the checks and holds an empty line, its head is settled. -/
theorem tryReadHead_append (h : LineChecks data) (hfirst : FirstAt (crlf ++ crlf) data i)
    (more : NSData) : tryReadHead (data ++ more) = tryReadHead data := by
  have hlength := hfirst.occurs.le_length (by decide)
  have hwhole : FirstAt (crlf ++ crlf) (data ++ more) i := hfirst.append (by decide)
  rw [tryReadHead_of_firstAt h hfirst,
    tryReadHead_of_firstAt (h.append (crlf_infix_of_firstAt hfirst) more) hwhole,
    List.take_append_of_le_length (by omega)]

/-- How a head is found. -/
structure ReadsHead (data : NSData) (head : Head) (i : ℕ) : Prop where
  lineChecks : LineChecks data
  firstAt : FirstAt (crlf ++ crlf) data i
  read : ∃ fullHeader, NSString.encodedAsUtf8 fullHeader = List.take i data ∧
    readHead fullHeader = .ok head

theorem tryReadHead_eq_some : tryReadHead data = .ok (some (head, headerLength)) ↔
    ∃ i, headerLength = i + 4 ∧ ReadsHead data head i := by
  by_cases h : LineChecks data
  · by_cases hinfix : crlf ++ crlf <:+: data
    · obtain ⟨i, hfirst⟩ := exists_firstAt_iff.mpr hinfix
      rw [tryReadHead_of_firstAt h hfirst]
      simp only [Throws.bind_eq_ok, Throws.pure_eq_ok, NSData.decodedAsUtf8_eq_ok,
        Option.some.injEq, Prod.mk.injEq]
      constructor
      · intro ⟨fullHeader, hdecode, _, hread, hhead, hlength⟩
        subst hhead
        exact ⟨i, hlength.symm, h, hfirst, fullHeader, hdecode, hread⟩
      · intro ⟨j, hlength, hj⟩
        obtain ⟨fullHeader, hdecode, hread⟩ := hj.read
        cases hfirst.unique hj.firstAt
        exact ⟨fullHeader, hdecode, head, hread, rfl, hlength.symm⟩
    · rw [tryReadHead_of_no_emptyLine h hinfix]
      constructor
      · intro hnone
        cases hnone
      · intro ⟨i, _, hi⟩
        exact absurd (exists_firstAt_iff.mp ⟨i, hi.firstAt⟩) hinfix
  · rw [tryReadHead_of_not_lineChecks h]
    constructor
    · intro herror
      cases herror
    · intro ⟨_, _, hi⟩
      exact absurd hi.lineChecks h

theorem headerLength_le (h : tryReadHead data = .ok (some (head, headerLength))) :
    headerLength ≤ data.length := by
  obtain ⟨i, rfl, hi⟩ := tryReadHead_eq_some.mp h
  exact hi.firstAt.occurs.le_length (by decide)

namespace Head

/-- A sum that wraps passes for one that is small enough. -/
theorem tryExtract_eq (hheader : headerLength ≤ data.length) :
    head.tryExtract data headerLength =
      if data.length < (headerLength + head.contentLength) % 2 ^ 64 then .ok none
      else if headerLength + head.contentLength ≤ data.length then
        (head.message (head.content data headerLength)).map fun m =>
          some (m, headerLength + head.contentLength)
      else .error .nsRangeException := by
  unfold tryExtract
  split_ifs with hwait hle
  · rfl
  · rw [optionalBodyData_of_le hle]
    rfl
  · rw [optionalBodyData_of_lt hheader (Nat.not_le.mp hle)]
    rfl

theorem tryExtract_eq_some (hheader : headerLength ≤ data.length) :
    head.tryExtract data headerLength = .ok (some (m, used)) ↔
      ¬ data.length < (headerLength + head.contentLength) % 2 ^ 64 ∧
        headerLength + head.contentLength ≤ data.length ∧
          head.message (head.content data headerLength) = .ok m ∧
            used = headerLength + head.contentLength := by
  rw [tryExtract_eq hheader]
  split_ifs with hwait hle
  · constructor
    · intro h
      cases h
    · intro h
      exact absurd hwait h.1
  · cases hmessage : head.message (head.content data headerLength) with
    | error e =>
      constructor
      · intro h
        cases h
      · intro ⟨_, _, h, _⟩
        cases h
    | ok m' =>
      simp only [Except.map, Except.ok.injEq, Option.some.injEq, Prod.mk.injEq]
      constructor
      · intro ⟨hm, hused⟩
        exact ⟨hwait, hle, hm, hused.symm⟩
      · intro ⟨_, _, hm, hused⟩
        exact ⟨hm, hused.symm⟩
  · constructor
    · intro h
      cases h
    · intro h
      exact absurd h.2.1 hle

end Head

theorem tryExtractFromPartialData_eq_some :
    tryExtractFromPartialData data = .ok (some (m, used)) ↔
      ∃ head headerLength, tryReadHead data = .ok (some (head, headerLength)) ∧
        head.tryExtract data headerLength = .ok (some (m, used)) := by
  unfold tryExtractFromPartialData
  rw [Throws.bind_eq_ok]
  constructor
  · intro ⟨read, hread, h⟩
    match read with
    | none => cases h
    | some (head, headerLength) => exact ⟨head, headerLength, hread, h⟩
  · intro ⟨head, headerLength, hread, h⟩
    exact ⟨some (head, headerLength), hread, h⟩

/-- What is extracted lies within the data, and is not empty. -/
theorem used_of_tryExtract (h : tryExtractFromPartialData data = .ok (some (m, used))) :
    0 < used ∧ used ≤ data.length := by
  obtain ⟨head, headerLength, hread, hextract⟩ := tryExtractFromPartialData_eq_some.mp h
  have hheader := headerLength_le hread
  obtain ⟨i, hi, _⟩ := tryReadHead_eq_some.mp hread
  obtain ⟨_, hle, _, hused⟩ := (Head.tryExtract_eq_some hheader).mp hextract
  omega

theorem Head.tryExtract_append (hheader : headerLength ≤ data.length)
    (h : head.tryExtract data headerLength = .ok (some (m, used))) (more : NSData) :
    head.tryExtract (data ++ more) headerLength = .ok (some (m, used)) := by
  have hlength : (data ++ more).length = data.length + more.length := List.length_append
  rw [tryExtract_eq_some hheader] at h
  rw [tryExtract_eq_some (by omega), content_append h.2.1]
  exact ⟨by omega, by omega, h.2.2⟩

/-- A message stays the same when more arrives. -/
theorem tryExtractFromPartialData_append
    (h : tryExtractFromPartialData data = .ok (some (m, used))) (more : NSData) :
    tryExtractFromPartialData (data ++ more) = .ok (some (m, used)) := by
  obtain ⟨head, headerLength, hread, hextract⟩ := tryExtractFromPartialData_eq_some.mp h
  have hheader := headerLength_le hread
  obtain ⟨i, _, hi⟩ := tryReadHead_eq_some.mp hread
  rw [← tryReadHead_append hi.lineChecks hi.firstAt more] at hread
  exact tryExtractFromPartialData_eq_some.mpr
    ⟨head, headerLength, hread, Head.tryExtract_append hheader hextract more⟩

end
end SignalIOS.Http
