import SignalIOS.Http.HttpParser

/-! Which data makes the parser raise something other than `OperationFailed`. -/
namespace SignalIOS.Http
open SignalIOS.Lib Throws

section
variable [NumberReading] {data : NSData} {head : Head} {headerLength i : ℕ} {e : Exception}

/-- A message or a failure that the caller is prepared for. -/
structure SafelyExtracts (data : NSData) : Prop where
  used : ∀ m used, tryExtractFromPartialData data = .ok (some (m, used)) →
    0 < used ∧ used ≤ data.length
  raises : FailsSafely (tryExtractFromPartialData data)
  sum : ∀ head headerLength, tryReadHead data = .ok (some (head, headerLength)) →
    headerLength + head.contentLength < 2 ^ 64

/-- The sender is truthful in `Content-Length`: the end of the message can be told, and a request
counts its body in UTF-16. -/
structure TruthfulContentLength (data : NSData) : Prop where
  bounded : ∀ head headerLength, tryReadHead data = .ok (some (head, headerLength)) →
    headerLength + head.contentLength < 2 ^ 64
  exact : ∀ head headerLength body, tryReadHead data = .ok (some (head, headerLength)) →
    head.isResponse = false → head.others.length = 1 →
    headerLength + head.contentLength ≤ data.length →
    head.content data headerLength = some (NSString.encodedAsUtf8 body) →
    head.headers.lookup contentLengthKey = some (.ofNumber body.utf16Length)

omit [NumberReading] in
theorem failsSafely_readHeaderLine (headers : Headers) (headerLine : NSString) :
    FailsSafely (readHeaderLine headers headerLine) := by
  unfold readHeaderLine
  split
  · exact failsSafely_ok _
  · exact failsSafely_operationFailed _

omit [NumberReading] in
theorem failsSafely_readHeaderLines (headers : Headers) (headerLines : List NSString) :
    FailsSafely (headerLines.foldlM readHeaderLine headers) := by
  induction headerLines generalizing headers with
  | nil => exact failsSafely_ok _
  | cons headerLine headerLines ih =>
    rw [List.foldlM_cons, failsSafely_bind]
    exact ⟨failsSafely_readHeaderLine _ _, fun headers _ => ih headers⟩

theorem failsSafely_readHead (fullHeader : NSString) : FailsSafely (readHead fullHeader) := by
  unfold readHead
  split
  · exact failsSafely_operationFailed _
  · split
    · rw [failsSafely_bind]
      refine ⟨failsSafely_readHeaderLines _ _, fun headers _ => ?_⟩
      dsimp only
      rw [failsSafely_bind]
      exact ⟨failsSafely_checkOperation, fun _ _ => failsSafely_ok _⟩
    · exact failsSafely_operationFailed _

omit [NumberReading] in
theorem failsSafely_decodedAsUtf8 : FailsSafely data.decodedAsUtf8 :=
  fun _ he => ⟨_, NSData.description_of_decodedAsUtf8 he⟩

omit [NumberReading] in
theorem failsSafely_mapM_decodedAsUtf8 (optionalData : Option NSData) :
    FailsSafely (optionalData.mapM NSData.decodedAsUtf8) := by
  cases optionalData with
  | none => exact failsSafely_ok _
  | some data => exact failsSafely_map.mpr failsSafely_decodedAsUtf8

theorem failsSafely_tryReadHead (data : NSData) : FailsSafely (tryReadHead data) := by
  by_cases hchecks : LineChecks data
  · by_cases hinfix : crlf ++ crlf <:+: data
    · obtain ⟨i, hfirst⟩ := exists_firstAt_iff.mpr hinfix
      rw [tryReadHead_of_firstAt hchecks hfirst, failsSafely_bind]
      refine ⟨failsSafely_decodedAsUtf8, fun fullHeader _ => ?_⟩
      rw [failsSafely_bind]
      exact ⟨failsSafely_readHead fullHeader, fun _ _ => failsSafely_ok _⟩
    · rw [tryReadHead_of_no_emptyLine hchecks hinfix]
      exact failsSafely_ok _
  · rw [tryReadHead_of_not_lineChecks hchecks]
    exact failsSafely_operationFailed _

/-- The parser has seen to the first requirement of the factory. -/
theorem lookup_of_readHead {fullHeader : NSString} (h : readHead fullHeader = .ok head) :
    head.headers.lookup contentLengthKey = none ↔ head.contentLengthParsed = none := by
  unfold readHead at h
  split at h
  · cases h
  · split at h
    · obtain ⟨headers, _, h⟩ := Throws.bind_eq_ok.mp h
      obtain ⟨_, hcheck, h⟩ := Throws.bind_eq_ok.mp h
      cases h
      exact checkOperation_eq_ok.mp hcheck
    · cases h

omit [NumberReading] in
theorem failsSafely_httpRequestWithMethod {method location : NSString} {headers : Headers}
    {optionalBody : Option NSString} :
    FailsSafely (HttpRequest.httpRequestWithMethod method location headers optionalBody) ↔
      headers.lookup contentLengthKey =
        optionalBody.map fun body => .ofNumber body.utf16Length := by
  by_cases h : headers.lookup contentLengthKey =
      optionalBody.map fun body => .ofNumber body.utf16Length
  · rw [HttpRequest.httpRequestWithMethod_of_eq h]
    exact iff_of_true (failsSafely_ok _) h
  · rw [HttpRequest.httpRequestWithMethod_of_ne h]
    apply iff_of_false _ h
    intro hsafe
    obtain ⟨_, hdescription⟩ := hsafe _ rfl
    cases hdescription

theorem failsSafely_response (optionalBodyData : Option NSData) :
    FailsSafely (head.response optionalBodyData) := by
  unfold Head.response
  split
  · exact failsSafely_operationFailed _
  · exact failsSafely_ok _

omit [NumberReading] in
/-- A request is checked against its body once this is decoded. -/
theorem failsSafely_request
    (h : head.headers.lookup contentLengthKey = none ↔ head.contentLengthParsed = none) :
    FailsSafely (head.request (head.content data headerLength)) ↔
      (head.others.length = 1 → ∀ body,
        head.content data headerLength = some (NSString.encodedAsUtf8 body) →
        head.headers.lookup contentLengthKey = some (.ofNumber body.utf16Length)) := by
  have hcontent : head.content data headerLength = none ↔ head.contentLengthParsed = none :=
    Option.map_eq_none_iff
  unfold Head.request
  rw [failsSafely_bind, and_iff_right failsSafely_checkOperation]
  simp only [checkOperation_eq_ok]
  constructor
  · intro hsafe hcount body hbody
    have hmade := (failsSafely_bind.mp (hsafe () hcount)).2 (some body)
      (NSData.mapM_decodedAsUtf8_eq_ok.mpr hbody)
    exact failsSafely_httpRequestWithMethod.mp hmade
  · intro hexact _ hcount
    rw [failsSafely_bind]
    constructor
    · exact failsSafely_mapM_decodedAsUtf8 _
    intro optionalBody hdecode
    rw [NSData.mapM_decodedAsUtf8_eq_ok] at hdecode
    rw [failsSafely_httpRequestWithMethod]
    cases optionalBody with
    | none => exact h.mpr (hcontent.mp hdecode)
    | some body => exact hexact hcount body hdecode

theorem failsSafely_message
    (h : head.headers.lookup contentLengthKey = none ↔ head.contentLengthParsed = none) :
    FailsSafely (head.message (head.content data headerLength)) ↔
      (head.isResponse = false → head.others.length = 1 → ∀ body,
        head.content data headerLength = some (NSString.encodedAsUtf8 body) →
        head.headers.lookup contentLengthKey = some (.ofNumber body.utf16Length)) := by
  unfold Head.message
  cases head.isResponse with
  | true =>
    rw [if_pos rfl, failsSafely_map]
    exact iff_of_true (failsSafely_response _) (fun hrequest => by cases hrequest)
  | false =>
    rw [if_neg Bool.false_ne_true, failsSafely_map, failsSafely_request h]
    exact ⟨fun h _ => h, fun h => h rfl⟩

/-- As long as the sum does not wrap, it is the message that fails. -/
theorem failsSafely_tryExtract (hheader : headerLength ≤ data.length)
    (hbounded : headerLength + head.contentLength < 2 ^ 64) :
    FailsSafely (head.tryExtract data headerLength) ↔
      (headerLength + head.contentLength ≤ data.length →
        FailsSafely (head.message (head.content data headerLength))) := by
  rw [Head.tryExtract_eq hheader, Nat.mod_eq_of_lt hbounded]
  split_ifs with hwait hle
  · exact iff_of_true (failsSafely_ok _) fun hle => absurd hle (Nat.not_le.mpr hwait)
  · rw [forall_prop_of_true hle]
    exact failsSafely_map
  · exact absurd (Nat.not_lt.mp hwait) hle

/-- The parser raises nothing but `OperationFailed`, and its sum does not wrap, exactly where
`Content-Length` is truthful. -/
theorem safelyExtracts_iff : SafelyExtracts data ↔ TruthfulContentLength data := by
  have hstages : FailsSafely (tryExtractFromPartialData data) ↔ ∀ head headerLength,
      tryReadHead data = .ok (some (head, headerLength)) →
        FailsSafely (head.tryExtract data headerLength) := by
    unfold tryExtractFromPartialData
    rw [failsSafely_bind, and_iff_right (failsSafely_tryReadHead data)]
    constructor
    · intro h head headerLength hread
      exact h _ hread
    · intro h read hread
      match read with
      | none => exact failsSafely_ok _
      | some (head, headerLength) => exact h head headerLength hread
  have hmessage : ∀ head headerLength, tryReadHead data = .ok (some (head, headerLength)) →
      (FailsSafely (head.message (head.content data headerLength)) ↔
        (head.isResponse = false → head.others.length = 1 → ∀ body,
          head.content data headerLength = some (NSString.encodedAsUtf8 body) →
          head.headers.lookup contentLengthKey = some (.ofNumber body.utf16Length))) := by
    intro head headerLength hread
    obtain ⟨i, _, hi⟩ := tryReadHead_eq_some.mp hread
    obtain ⟨fullHeader, _, hhead⟩ := hi.read
    exact failsSafely_message (lookup_of_readHead hhead)
  constructor
  · intro h
    constructor
    · exact h.sum
    · intro head headerLength body hread hrequest hcount hle hbody
      have hextract := hstages.mp h.raises head headerLength hread
      rw [failsSafely_tryExtract (headerLength_le hread) (h.sum _ _ hread)] at hextract
      exact (hmessage _ _ hread).mp (hextract hle) hrequest hcount body hbody
  · intro h
    constructor
    · exact fun m used => used_of_tryExtract
    · apply hstages.mpr
      intro head headerLength hread
      rw [failsSafely_tryExtract (headerLength_le hread) (h.bounded _ _ hread)]
      intro hle
      apply (hmessage _ _ hread).mpr
      intro hrequest hcount body hbody
      exact h.exact head headerLength body hread hrequest hcount hle hbody
    · exact h.bounded

end

section
attribute [local instance] digitReading

/-- The sum is one less than the length of the header, and so within the data. -/
def wrappedLength : NSData :=
  NSString.encodedAsUtf8 "GET / HTTP/1.0\r\nContent-Length: 18446744073709551615\r\n\r\n".toList

theorem tryExtract_wrappedLength :
    tryExtractFromPartialData wrappedLength = .error .nsRangeException := by
  have hchecks : LineChecks wrappedLength := lineChecks_iff.mpr (by decide)
  have hfirst : FirstAt (crlf ++ crlf) wrappedLength 52 :=
    (NSData.tryFindIndexOf_eq_some (by decide)).mp (by decide)
  have hhead : tryReadHead wrappedLength = .ok (some (⟨"GET".toList, "/".toList,
      ["HTTP/1.0".toList], AList.insert contentLengthKey "18446744073709551615".toList ∅,
      some 18446744073709551615⟩, 56)) :=
    tryReadHead_eq_some.mpr ⟨52, rfl, hchecks, hfirst,
      "GET / HTTP/1.0\r\nContent-Length: 18446744073709551615".toList, by decide, rfl⟩
  unfold tryExtractFromPartialData
  rw [hhead]
  have hheader : 56 ≤ wrappedLength.length := by decide
  dsimp only [bind, Except.bind]
  rw [Head.tryExtract_eq hheader, if_neg (by decide), if_neg (by decide)]

theorem not_safelyExtracts_wrappedLength : ¬ SafelyExtracts wrappedLength := by
  intro h
  obtain ⟨_, hdescription⟩ := h.raises _ tryExtract_wrappedLength
  cases hdescription

end
end SignalIOS.Http
