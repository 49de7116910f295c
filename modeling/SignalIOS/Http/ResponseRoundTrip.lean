import SignalIOS.Http.HttpParser

/-! Responses that are parsed back from their bytes. Their headers are not sent, and no empty line
stands before a body. -/
namespace SignalIOS.Http
open SignalIOS.Lib

namespace HttpResponse

variable {response : HttpResponse} {body : NSString}

/-- The line of the status, without its end. -/
def statusLine (response : HttpResponse) : NSString :=
  "HTTP/1.0".toList ++ ' ' ::
    (NSString.ofNumber response.statusCode.toNat ++ ' ' :: response.statusText)

/-- What is sent before a body, but for the last line break. -/
def bodyLead (response : HttpResponse) (body : NSString) : NSString :=
  response.statusLine ++ "\r\nContent-Length: ".toList ++ NSString.ofNumber body.utf16Length

theorem statusLine_eq (response : HttpResponse) : response.statusLine = "HTTP/1.0".toList ++ ' ' ::
    (NSString.ofNumber response.statusCode.toNat ++ ' ' :: response.statusText) := rfl

theorem getOptionalBodyText_eq_none :
    response.getOptionalBodyText = .ok none ↔ response.hasBody = false := by
  obtain ⟨_, _, _, text, data⟩ := response
  unfold getOptionalBodyText hasBody
  cases text with
  | some text =>
    refine iff_of_false (fun h => ?_) (by simp)
    cases h
  | none =>
    cases data with
    | none => exact iff_of_true rfl rfl
    | some data =>
      refine iff_of_false (fun h => ?_) (by simp)
      obtain ⟨text, _, htext⟩ := Throws.bind_eq_ok.mp h
      cases htext

theorem toHttp_of_none (h : response.getOptionalBodyText = .ok none) :
    response.toHttp = .ok (response.statusLine ++ ("\r\n".toList ++ "\r\n".toList)) := by
  have hversion : "HTTP/1.0 ".toList = "HTTP/1.0".toList ++ [' '] := by decide
  have hspace : " ".toList = [' '] := by decide
  unfold toHttp
  rw [h]
  dsimp only [bind, Except.bind, pure, Except.pure]
  rw [hversion, hspace, statusLine_eq]
  simp only [List.append_assoc, List.cons_append, List.nil_append]

theorem toHttp_of_some (h : response.getOptionalBodyText = .ok (some body)) :
    response.toHttp = .ok (response.bodyLead body ++ "\r\n".toList ++ body) := by
  have hversion : "HTTP/1.0 ".toList = "HTTP/1.0".toList ++ [' '] := by decide
  have hspace : " ".toList = [' '] := by decide
  have hlead : "\r\nContent-Length: ".toList = "\r\n".toList ++ "Content-Length: ".toList := by
    decide
  unfold toHttp
  rw [h]
  dsimp only [bind, Except.bind, pure, Except.pure]
  rw [hversion, hspace, bodyLead, hlead, statusLine_eq]
  simp only [List.append_assoc, List.cons_append, List.nil_append]

theorem serialize_of_none (h : response.getOptionalBodyText = .ok none) :
    response.serialize = .ok (response.statusLine.encodedAsUtf8 ++ (crlf ++ crlf)) := by
  have hend : NSString.encodedAsUtf8 ("\r\n".toList ++ "\r\n".toList) = crlf ++ crlf := by decide
  rw [serialize, toHttp_of_none h, ← hend, ← NSString.encodedAsUtf8_append]
  rfl

theorem serialize_of_some (h : response.getOptionalBodyText = .ok (some body)) :
    response.serialize =
      .ok ((response.bodyLead body).encodedAsUtf8 ++ crlf ++ body.encodedAsUtf8) := by
  have hend : NSString.encodedAsUtf8 "\r\n".toList = crlf := by decide
  rw [serialize, toHttp_of_some h, ← hend, ← NSString.encodedAsUtf8_append,
    ← NSString.encodedAsUtf8_append]
  rfl

section
variable [NumberReading]

/-- The same status, headers but for `Content-Length`, and body. -/
structure Same (response other : HttpResponse) : Prop where
  statusCode : response.statusCode = other.statusCode
  statusText : response.statusText = other.statusText
  headers : ∀ key, key ≠ contentLengthKey →
    response.headers.lookup key = other.headers.lookup key
  body : response.getOptionalBodyText = other.getOptionalBodyText

/-- The bytes of the response are used up, and what is made of them is the same response. -/
def RoundTrips (response : HttpResponse) : Prop :=
  ∃ data response', response.serialize = .ok data ∧
    tryExtractFromPartialData data = .ok (some (.response response', data.length)) ∧
    response'.Same response

/-- What is left of a response without a body. -/
def bare (response : HttpResponse) : HttpResponse where
  statusCode := response.statusCode
  statusText := response.statusText
  headers := ∅

variable (hstatusText : ∀ c ∈ response.statusText, c ≠ '\r' ∧ c ≠ '\n')
include hstatusText

omit [NumberReading] in
theorem notMem_statusLine : '\r' ∉ response.statusLine := by
  have hversion : '\r' ∉ "HTTP/1.0".toList := by decide
  have hcode : '\r' ∉ NSString.ofNumber response.statusCode.toNat :=
    NSString.notMem_ofNumber (by decide)
  rw [statusLine_eq]
  simp only [List.mem_append, List.mem_cons, not_or]
  exact ⟨hversion, by decide, hcode, by decide, fun hc => (hstatusText _ hc).1 rfl⟩

omit [NumberReading] in
theorem firstAt_statusLine :
    FirstAt (crlf ++ crlf) (response.statusLine.encodedAsUtf8 ++ (crlf ++ crlf))
      response.statusLine.encodedAsUtf8.length := by
  have hline : ∀ part ∈ [response.statusLine.encodedAsUtf8], part ≠ [] ∧ (13 : UInt8) ∉ part := by
    intro part hpart
    rw [List.mem_singleton.mp hpart]
    constructor
    · rw [ne_eq, NSString.encodedAsUtf8_eq_nil, statusLine_eq]
      exact List.append_ne_nil_of_right_ne_nil _ (List.cons_ne_nil _ _)
    · intro hmem
      exact notMem_statusLine hstatusText
        ((NSString.mem_encodedAsUtf8 (c := '\r') (by decide)).mp hmem)
  have hfirst := @firstAt_intercalate _ [10] _ _ hline (by decide) (List.cons_ne_nil _ _) []
  rw [List.intercalate_singleton, List.append_nil] at hfirst
  exact hfirst

omit hstatusText [NumberReading] in
/-- The head that a response without a body is sent with. -/
def head (response : HttpResponse) : Head where
  first := "HTTP/1.0".toList
  second := NSString.ofNumber response.statusCode.toNat
  others := splitOn [' '] response.statusText
  headers := ∅
  contentLengthParsed := none

theorem readHead_statusLine : readHead response.statusLine = .ok response.head := by
  have hlines : response.statusLine.componentsSeparatedByString "\r\n".toList =
      [response.statusLine] := splitOn_of_notMem (notMem_statusLine hstatusText)
  have hne : splitOn [' '] response.statusText ≠ [] := splitOn_ne_nil
  obtain ⟨third, others, hothers⟩ := List.exists_cons_of_ne_nil hne
  have hparts : response.statusLine.componentsSeparatedByString " ".toList =
      "HTTP/1.0".toList :: NSString.ofNumber response.statusCode.toNat :: third :: others := by
    have hspace : " ".toList = [' '] := by decide
    have hversion : ' ' ∉ "HTTP/1.0".toList := by decide
    rw [NSString.componentsSeparatedByString, hspace, statusLine_eq, ← hothers]
    refine (splitOn_append hversion).trans ?_
    have hcode : ' ' ∉ NSString.ofNumber response.statusCode.toNat :=
      NSString.notMem_ofNumber (by decide)
    exact congrArg _ (splitOn_append hcode)
  unfold readHead head
  rw [hlines]
  dsimp only
  rw [hparts, hothers]
  rfl

omit hstatusText in
theorem message_head [LawfulNumberReading] :
    response.head.message none = .ok (.response response.bare) := by
  have hstatusText : " ".toList.intercalate (splitOn [' '] response.statusText) =
      response.statusText := intercalate_splitOn (List.cons_ne_nil _ _)
  have hmade : response.head.response none = .ok response.bare := by
    unfold Head.response head bare
    dsimp only
    rw [NSString.tryParseAsUnsignedInteger_ofNumber, hstatusText]
  have hinitial : "HTTP/".toList.isPrefixOf "HTTP/1.0".toList = true := by decide
  have hresponse : response.head.isResponse = true := hinitial
  unfold Head.message
  rw [if_pos hresponse, hmade]
  rfl

/-- Without a body the response comes back, but for its headers. -/
theorem tryExtract_bare [LawfulNumberReading] :
    tryExtractFromPartialData (response.statusLine.encodedAsUtf8 ++ (crlf ++ crlf)) =
      .ok (some (.response response.bare,
        (response.statusLine.encodedAsUtf8 ++ (crlf ++ crlf)).length)) := by
  have hfirst := firstAt_statusLine hstatusText
  have hchecks : LineChecks (response.statusLine.encodedAsUtf8 ++ (crlf ++ crlf)) := by
    constructor
    · intro _
      have hversion : NSString.encodedAsUtf8 "HTTP/1.0".toList = http ++ [47, 49, 46, 48] := by
        decide
      rw [statusLine_eq, NSString.encodedAsUtf8_append, hversion]
      simp only [List.append_assoc]
      exact List.infix_append [] http _
    · intro _
      exact crlf_infix_of_firstAt hfirst
  have hread : tryReadHead (response.statusLine.encodedAsUtf8 ++ (crlf ++ crlf)) =
      .ok (some (response.head, response.statusLine.encodedAsUtf8.length + 4)) :=
    tryReadHead_eq_some.mpr ⟨_, rfl, hchecks, hfirst, response.statusLine,
      List.take_left.symm, readHead_statusLine hstatusText⟩
  have hlength : (response.statusLine.encodedAsUtf8 ++ (crlf ++ crlf)).length =
      response.statusLine.encodedAsUtf8.length + 4 := List.length_append
  apply tryExtractFromPartialData_eq_some.mpr
  refine ⟨_, _, hread, (Head.tryExtract_eq_some hlength.ge).mpr ⟨?_, hlength.ge, ?_, hlength⟩⟩
  · rw [hlength]
    exact Nat.not_lt.mpr (Nat.mod_le _ _)
  · exact message_head

omit [NumberReading] hstatusText in
/-- Before the body there is a number and one line break, and no empty line. -/
theorem not_occursAt_bodyLead {i : ℕ}
    (hend : i + 4 = ((response.bodyLead body).encodedAsUtf8 ++ crlf).length) :
    ¬ OccursAt (crlf ++ crlf) ((response.bodyLead body).encodedAsUtf8 ++ crlf) i := by
  intro hoccurs
  have hlength : (crlf ++ crlf).length =
      (List.drop i ((response.bodyLead body).encodedAsUtf8 ++ crlf)).length := by
    rw [List.length_drop, ← hend, Nat.add_sub_cancel_left]
    rfl
  have hdrop := hoccurs.eq_of_length hlength
  have hsplit := List.take_append_drop i ((response.bodyLead body).encodedAsUtf8 ++ crlf)
  rw [← hdrop, ← List.append_assoc] at hsplit
  have hlead := List.append_cancel_right hsplit
  rw [bodyLead, NSString.encodedAsUtf8_append] at hlead
  have hlast := congrArg List.getLast? hlead
  have hnumber : (NSString.ofNumber body.utf16Length).encodedAsUtf8 ≠ [] := by
    rw [ne_eq, NSString.encodedAsUtf8_eq_nil]
    exact NSString.ofNumber_ne_nil _
  rw [List.getLast?_append_of_ne_nil _ hnumber, List.getLast?_append_of_ne_nil _ (by decide)] at hlast
  have hmem : (10 : UInt8) ∈ (NSString.ofNumber body.utf16Length).encodedAsUtf8 :=
    List.mem_of_mem_getLast? hlast.symm
  have hnewline : '\n' ∈ NSString.ofNumber body.utf16Length :=
    (NSString.mem_encodedAsUtf8 (c := '\n') (by decide)).mp hmem
  exact NSString.notMem_ofNumber (by decide) hnewline

omit hstatusText in
theorem body_of_message {head : Head} {content : Option NSData} {response' : HttpResponse}
    (h : head.message content = .ok (.response response')) :
    response'.optionalBodyText = none ∧ response'.optionalBodyData = content := by
  unfold Head.message at h
  cases hresponse : head.isResponse with
  | false =>
    rw [hresponse, if_neg Bool.false_ne_true, map_eq_pure_bind, Throws.bind_eq_ok] at h
    obtain ⟨_, _, h⟩ := h
    cases h
  | true =>
    rw [hresponse, if_pos rfl, map_eq_pure_bind, Throws.bind_eq_ok] at h
    obtain ⟨made, hmade, h⟩ := h
    cases h
    unfold Head.response at hmade
    split at hmade
    · cases hmade
    · cases hmade
      exact ⟨rfl, rfl⟩

omit hstatusText in
/-- A body is never found where it was written. -/
theorem not_sameBody {data : NSData} {response' : HttpResponse}
    (hbody : response.getOptionalBodyText = .ok (some body))
    (hdata : response.serialize = .ok data)
    (hextract : tryExtractFromPartialData data = .ok (some (.response response', data.length))) :
    response'.getOptionalBodyText ≠ .ok (some body) := by
  intro hsame
  rw [serialize_of_some hbody] at hdata
  cases hdata
  obtain ⟨head, headerLength, hread, hextract⟩ := tryExtractFromPartialData_eq_some.mp hextract
  obtain ⟨i, rfl, hhead⟩ := tryReadHead_eq_some.mp hread
  obtain ⟨_, hle, hmessage, hused⟩ := (Head.tryExtract_eq_some (headerLength_le hread)).mp hextract
  obtain ⟨htext, hdata⟩ := body_of_message hmessage
  cases hcontent : head.content ((response.bodyLead body).encodedAsUtf8 ++ crlf ++
      body.encodedAsUtf8) (i + 4) with
  | none =>
    unfold getOptionalBodyText at hsame
    rw [htext, hdata, hcontent] at hsame
    cases hsame
  | some content =>
    have hcontentLength := Head.length_content hcontent hle
    have hbytes : body.encodedAsUtf8 = content := by
      unfold getOptionalBodyText at hsame
      rw [htext, hdata, hcontent] at hsame
      obtain ⟨text, hdecode, htext⟩ := Throws.bind_eq_ok.mp hsame
      cases htext
      exact NSData.decodedAsUtf8_eq_ok.mp hdecode
    -- The content uses up the data, so it begins where the body does.
    have hend : i + 4 = ((response.bodyLead body).encodedAsUtf8 ++ crlf).length := by
      rw [List.length_append, hbytes, hcontentLength] at hused
      omega
    exact not_occursAt_bodyLead hend (hhead.firstAt.occurs.of_append hend.le)

/-- A response comes back exactly if it has no body, and no header that would have to be sent. -/
theorem roundTrips_iff_bare [LawfulNumberReading] :
    response.RoundTrips ↔ response.hasBody = false ∧
      ∀ key, key ≠ contentLengthKey → response.headers.lookup key = none := by
  constructor
  · intro ⟨data, response', hdata, hextract, hsame⟩
    match hbody : response.getOptionalBodyText with
    | .error e =>
      rw [serialize, toHttp, hbody] at hdata
      cases hdata
    | .ok (some body) =>
      exact absurd (hsame.body.trans hbody) (not_sameBody hbody hdata hextract)
    | .ok none =>
      have hbare := tryExtract_bare hstatusText
      rw [serialize_of_none hbody] at hdata
      cases hdata
      rw [hextract] at hbare
      cases hbare
      exact ⟨getOptionalBodyText_eq_none.mp hbody, fun key hkey => (hsame.headers key hkey).symm⟩
  · intro ⟨hbody, hheaders⟩
    have htext := getOptionalBodyText_eq_none.mpr hbody
    refine ⟨_, response.bare, serialize_of_none htext, tryExtract_bare hstatusText, rfl, rfl, ?_, ?_⟩
    · intro key hkey
      exact (hheaders key hkey).symm
    · exact htext.symm

end
section
attribute [local instance] digitReading lawful_digitReading

theorem roundTrips_ok_iff :
    (∀ c ∈ (httpResponse200OkWithOptionalBody none).statusText, c ≠ '\r' ∧ c ≠ '\n') ∧
      ((httpResponse200OkWithOptionalBody none).RoundTrips ↔
        (httpResponse200OkWithOptionalBody none).hasBody = false ∧
          ∀ key, key ≠ contentLengthKey →
            (httpResponse200OkWithOptionalBody none).headers.lookup key = none) :=
  have hstatusText : ∀ c ∈ "OK".toList, c ≠ '\r' ∧ c ≠ '\n' :=
    List.forall_iff_forall_mem.mp (by decide)
  ⟨hstatusText, roundTrips_iff_bare hstatusText⟩

theorem not_roundTrips_okWithBody :
    ¬ (httpResponse200OkWithOptionalBody (some "a".toList)).RoundTrips := by
  intro ⟨data, response', hdata, hextract, hsame⟩
  exact not_sameBody rfl hdata hextract hsame.body

end
end HttpResponse
end SignalIOS.Http
