import SignalIOS.Http.HttpSocket
import SignalIOS.Http.RequestRoundTrip
import SignalIOS.Http.ResponseRoundTrip
import SignalIOS.Network.WritePath

/-! Requests and responses one after the other, from the socket of one party through its stream to
the socket of the other. -/
namespace SignalIOS.Http
open SignalIOS.Lib SignalIOS.Network

namespace HttpRequestOrResponse

def serialize : HttpRequestOrResponse → Throws NSData
  | .request sent => .ok sent.serialize
  | .response sent => sent.serialize

/-- What comes back from its bytes: a request whose body is in ASCII, or a response without a body.
The headers of a response are not sent. -/
def Sendable : HttpRequestOrResponse → Prop
  | .request sent => sent.WellFormed ∧
      ∀ body ∈ sent.optionalBody, ∀ c ∈ body, c.toNat < 128
  | .response sent => (∀ c ∈ sent.statusText, c ≠ '\r' ∧ c ≠ '\n') ∧ sent.hasBody = false ∧
      sent.headers = ∅

inductive Arrives : HttpRequestOrResponse → HttpRequestOrResponse → Prop
  | request {sent received : HttpRequest} (h : received.Same sent) :
    Arrives (.request sent) (.request received)
  | response (sent : HttpResponse) : Arrives (.response sent) (.response sent)

end HttpRequestOrResponse

section
variable {line later part bytes : NSData} {m : HttpRequestOrResponse}

/-- Data that begins with a line of HTTP passes the checks as far as it has come. -/
theorem lineChecks_of_prefix (hhttp : http <:+: line) (hline : 10 ∉ line)
    (hpart : part <+: line ++ crlf ++ later) : LineChecks part := by
  rcases Nat.lt_or_ge (line.length + 1) part.length with hlong | hshort
  · have hlength : (line ++ crlf).length = line.length + 2 := List.length_append
    obtain ⟨more, rfl⟩ : line ++ crlf <+: part :=
      List.prefix_of_prefix_length_le (List.prefix_append _ later) hpart (by omega)
    constructor
    · intro _
      obtain ⟨before, behind, rfl⟩ := hhttp
      exact ⟨before, behind ++ crlf ++ more, by simp only [List.append_assoc]⟩
    · intro _
      exact ⟨line, more, rfl⟩
  · have hbefore : part <+: line ++ [13] := by
      have hsplit : line ++ crlf ++ later = (line ++ [13]) ++ (10 :: later) := by
        simp only [List.append_assoc]
        rfl
      rw [hsplit] at hpart
      apply List.prefix_of_prefix_length_le hpart (List.prefix_append _ _)
      rw [List.length_append]
      exact hshort
    have hnone : ¬ lf <:+: part := by
      intro hlf
      have hmem : (10 : UInt8) ∈ line ++ [13] :=
        hbefore.isInfix.mem (hlf.mem (List.mem_singleton.mpr rfl))
      rcases List.mem_append.mp hmem with hmem | hmem
      · exact hline hmem
      · exact absurd (List.mem_singleton.mp hmem) (by decide)
    constructor
    · intro hcrlf
      exact absurd (List.IsInfix.trans (by decide) hcrlf) hnone
    · intro hlf
      exact absurd hlf hnone

variable [NumberReading]

/-- A message that is read from its bytes is waited for while some of them are missing. -/
theorem carries_of_extract (hlength : bytes.length < 2 ^ 64)
    (hfound : tryExtractFromPartialData bytes = .ok (some (m, bytes.length)))
    (hchecks : ∀ part, part <+: bytes → LineChecks part) : messageExtractor.Carries bytes m := by
  constructor
  · rw [extract_messageExtractor, hfound]
    rfl
  · intro part hpart hne
    have hshort : part.length < bytes.length := by
      apply Nat.lt_of_le_of_ne hpart.length_le
      intro hsame
      exact hne (hpart.eq_of_length hsame)
    have hwait : tryExtractFromPartialData part = .ok none := by
      by_cases hinfix : crlf ++ crlf <:+: part
      · obtain ⟨i, hfirst⟩ := exists_firstAt_iff.mpr hinfix
        obtain ⟨head, headerLength, hread, hextract⟩ :=
          tryExtractFromPartialData_eq_some.mp hfound
        obtain ⟨_, _, _, hused⟩ := (Head.tryExtract_eq_some (headerLength_le hread)).mp hextract
        obtain ⟨more, rfl⟩ := hpart
        rw [tryReadHead_append (hchecks part (List.prefix_append _ _)) hfirst] at hread
        have hmodulo : (headerLength + head.contentLength) % 2 ^ 64 =
            headerLength + head.contentLength := Nat.mod_eq_of_lt (by omega)
        unfold tryExtractFromPartialData
        rw [hread]
        change head.tryExtract part headerLength = _
        rw [Head.tryExtract_eq (headerLength_le hread), hmodulo, if_pos (by omega)]
      · unfold tryExtractFromPartialData
        rw [tryReadHead_of_no_emptyLine (hchecks part hpart) hinfix]
        rfl
    rw [extract_messageExtractor, hwait]
    rfl

end

section
variable [NumberReading] [LawfulNumberReading]

theorem HttpRequest.carries {request : HttpRequest} (h : request.WellFormed)
    (hlength : request.serialize.length < 2 ^ 64)
    (hascii : ∀ body ∈ request.optionalBody, ∀ c ∈ body, c.toNat < 128) :
    ∃ received, messageExtractor.Carries request.serialize (.request received) ∧
      received.Same request := by
  have hunits : (request.optionalBody.getD []).utf16Length =
      (NSString.encodedAsUtf8 (request.optionalBody.getD [])).length := by
    rw [NSString.utf16Length_eq_length]
    cases hbody : request.optionalBody with
    | none => simp
    | some body => exact hascii body hbody
  obtain ⟨received, hfound, _, hsame⟩ := h.roundTrips_of_units hlength hunits
  refine ⟨received, carries_of_extract hlength hfound ?_, hsame⟩
  have hline : ∃ later, request.serialize = request.requestLine.encodedAsUtf8 ++ crlf ++ later := by
    have hcrlf : NSString.encodedAsUtf8 "\r\n".toList = crlf := by decide
    have hversion : " HTTP/1.0\r\n".toList = ' ' :: ("HTTP/1.0".toList ++ "\r\n".toList) := by decide
    have hspace : " ".toList = [' '] := by decide
    refine ⟨NSString.encodedAsUtf8 (request.headers.entries.flatMap (fun entry =>
      entry.1 ++ ": ".toList ++ entry.2 ++ "\r\n".toList) ++ "\r\n".toList ++
        request.optionalBody.getD []), ?_⟩
    rw [serialize, toHttp, hversion, hspace, ← hcrlf, ← NSString.encodedAsUtf8_append,
      ← NSString.encodedAsUtf8_append]
    simp only [requestLine, List.append_assoc, List.cons_append, List.nil_append]
  obtain ⟨later, hbytes⟩ := hline
  rw [hbytes]
  intro part
  apply lineChecks_of_prefix
  · have hhttp : NSString.encodedAsUtf8 "HTTP".toList = http := by decide
    have hend : "HTTP/1.0".toList = "HTTP".toList ++ "/1.0".toList := by decide
    refine ⟨NSString.encodedAsUtf8 (request.method ++ ' ' :: (request.location ++ [' '])),
      NSString.encodedAsUtf8 "/1.0".toList, ?_⟩
    rw [← hhttp, ← NSString.encodedAsUtf8_append, ← NSString.encodedAsUtf8_append, requestLine, hend]
    simp only [List.append_assoc, List.cons_append, List.nil_append]
  · intro hmem
    have hmem : '\n' ∈ request.requestLine := (NSString.mem_encodedAsUtf8 (by decide)).mp hmem
    have hversion : '\n' ∉ "HTTP/1.0".toList := by decide
    simp only [requestLine, List.mem_append, List.mem_cons] at hmem
    rcases hmem with hmem | hmem | hmem | hmem | hmem
    · exact (h.method.char _ hmem).2.2 rfl
    · exact absurd hmem (by decide)
    · exact (h.location.char _ hmem).2.2 rfl
    · exact absurd hmem (by decide)
    · exact hversion hmem

omit [NumberReading] [LawfulNumberReading] in
theorem HttpResponse.bare_eq {response : HttpResponse} (hbody : response.hasBody = false)
    (hheaders : response.headers = ∅) : response.bare = response := by
  obtain ⟨statusCode, statusText, headers, text, data⟩ := response
  obtain ⟨hdata, htext⟩ := Bool.or_eq_false_iff.mp hbody
  obtain rfl : data = none := Option.isNone_iff_eq_none.mp (Option.isSome_eq_false_iff.mp hdata)
  obtain rfl : text = none := Option.isNone_iff_eq_none.mp (Option.isSome_eq_false_iff.mp htext)
  obtain rfl : headers = ∅ := hheaders
  rfl

theorem HttpResponse.carries {response : HttpResponse}
    (hstatusText : ∀ c ∈ response.statusText, c ≠ '\r' ∧ c ≠ '\n')
    (hlength : (response.statusLine.encodedAsUtf8 ++ (crlf ++ crlf)).length < 2 ^ 64) :
    messageExtractor.Carries (response.statusLine.encodedAsUtf8 ++ (crlf ++ crlf))
      (.response response.bare) := by
  apply carries_of_extract hlength (tryExtract_bare hstatusText)
  intro part hpart
  rw [← List.append_assoc] at hpart
  refine lineChecks_of_prefix ?_ ?_ hpart
  · have hhttp : NSString.encodedAsUtf8 "HTTP".toList = http := by decide
    have hbegin : "HTTP/1.0".toList = "HTTP".toList ++ "/1.0".toList := by decide
    rw [statusLine_eq, hbegin, List.append_assoc, NSString.encodedAsUtf8_append, hhttp]
    exact List.infix_append [] http _
  · intro hmem
    have hversion : '\n' ∉ "HTTP/1.0".toList := by decide
    have hmem : '\n' ∈ response.statusLine := (NSString.mem_encodedAsUtf8 (by decide)).mp hmem
    rw [statusLine_eq, List.mem_append, List.mem_cons, List.mem_append, List.mem_cons] at hmem
    rcases hmem with hmem | hmem | hmem | hmem | hmem
    · exact hversion hmem
    · exact absurd hmem (by decide)
    · have hdigit := NSString.digit_of_mem_ofNumber hmem
      exact absurd hdigit.1 (by decide)
    · exact absurd hmem (by decide)
    · exact (hstatusText _ hmem).2 rfl

/-- The messages are these bytes, one after the other. -/
abbrev Serialized (messages : List HttpRequestOrResponse) (datas : List NSData) : Prop :=
  List.Forall₂ (fun m data => m.serialize = .ok data ∧ data.length < 2 ^ 64) messages datas

variable {messages : List HttpRequestOrResponse} {datas reads : List NSData}

theorem HttpRequestOrResponse.Sendable.carries {data : NSData} {m : HttpRequestOrResponse}
    (h : m.Sendable) (hdata : m.serialize = .ok data) (hlength : data.length < 2 ^ 64) :
    ∃ received, messageExtractor.Carries data received ∧ m.Arrives received := by
  cases m with
  | request sent =>
    obtain ⟨hwellFormed, hascii⟩ := h
    obtain rfl := Except.ok.inj hdata
    obtain ⟨received, hcarries, hsame⟩ := sent.carries hwellFormed hlength hascii
    exact ⟨.request received, hcarries, .request hsame⟩
  | response sent =>
    obtain ⟨hstatusText, hbody, hheaders⟩ := h
    have htext := HttpResponse.getOptionalBodyText_eq_none.mpr hbody
    obtain rfl := Except.ok.inj ((HttpResponse.serialize_of_none htext).symm.trans hdata)
    have hcarries := HttpResponse.carries hstatusText hlength
    rw [HttpResponse.bare_eq hbody hheaders] at hcarries
    exact ⟨.response sent, hcarries, .response sent⟩

theorem Serialized.carries (h : Serialized messages datas) (hsendable : ∀ m ∈ messages, m.Sendable) :
    ∃ received, List.Forall₂ messageExtractor.Carries datas received ∧
      List.Forall₂ HttpRequestOrResponse.Arrives messages received := by
  induction h with
  | nil => exact ⟨[], .nil, .nil⟩
  | cons hfirst _ ih =>
    obtain ⟨hsends, hlater⟩ := List.forall_mem_cons.mp hsendable
    obtain ⟨m, hcarries, harrives⟩ := hsends.carries hfirst.1 hfirst.2
    obtain ⟨received, hcarriesLater, harrivesLater⟩ := ih hlater
    exact ⟨m :: received, .cons hcarries hcarriesLater, .cons harrives harrivesLater⟩

/-- However sending and writing interleave on one side, and however the network splits the bytes: the
handler on the other side has been given the messages whose bytes have come, as they were sent and in
their order, and nothing has failed. Once all bytes have come it has been given all messages. -/
theorem handled_of_sent (hsendable : ∀ m ∈ messages, m.Sendable) (hdatas : Serialized messages datas)
    {events : List NetworkStream.Event} (hfit : NetworkStream.AllFit events {})
    (hsent : NetworkStream.sent events = datas.flatten)
    (hreads : reads.flatten <+: (NetworkStream.after events {}).accepted) :
    let stream := NetworkStream.after events {}
    let socket := HttpSocket.receive reads
    (∃ n rest, List.Forall₂ HttpRequestOrResponse.Arrives (messages.take n) socket.handled ∧
      socket.partialDataBuffer = .ok rest ∧ reads.flatten = (datas.take n).flatten ++ rest ∧
      ∀ next ∈ datas[n]?, rest.length < next.length) ∧
    (reads.flatten = stream.accepted → stream.writeBuffer.contents = [] →
      List.Forall₂ HttpRequestOrResponse.Arrives messages socket.handled ∧
        socket.partialDataBuffer = .ok []) := by
  intro stream socket
  have hbytes : stream.accepted ++ stream.writeBuffer.contents = datas.flatten := by
    have hinit : (CyclicalBuffer.init).WellFormed := CyclicalBuffer.wellFormed_withCapacity (by decide)
    exact (NetworkStream.extends_after hinit hfit).bytes.trans hsent
  have hprefix : reads.flatten <+: datas.flatten :=
    hbytes ▸ hreads.trans (List.prefix_append stream.accepted stream.writeBuffer.contents)
  obtain ⟨received, hcarries, harrives⟩ := hdatas.carries hsendable
  obtain ⟨n, rest, houtcome, hsplit, hnext, hall⟩ :=
    Extractor.outcome_of_carries hcarries hprefix
  obtain ⟨hhandled, hbuffer⟩ := receive_eq_outcome reads
  rw [houtcome] at hhandled hbuffer
  constructor
  · refine ⟨n, rest, ?_, hbuffer, hsplit, hnext⟩
    rw [hhandled]
    exact List.forall₂_take n harrives
  · intro hread hwritten
    rw [hwritten, List.append_nil] at hbytes
    rw [hread, hbytes] at hsplit
    have hn : datas.length ≤ n := Extractor.length_le_of_split hsplit hnext
    have hmessages : messages.length ≤ n := hdatas.length_eq ▸ hn
    constructor
    · have hreceived := harrives.length_eq
      rw [hhandled, List.take_of_length_le (by omega)]
      exact harrives
    · rw [hbuffer, hall hn]

end

section Sample
attribute [local instance] digitReading lawful_digitReading

def sampleMessages : List HttpRequestOrResponse :=
  [.request (HttpRequest.put "hi"), .response (HttpResponse.httpResponse200OkWithOptionalBody none)]

def sampleDatas : List NSData :=
  [(HttpRequest.put "hi").serialize, NSString.encodedAsUtf8 "HTTP/1.0 200 OK\r\n\r\n".toList]

/-- The first message is written in two parts, the second one in part. -/
def sampleEvents : List NetworkStream.Event :=
  [.startWithHandler, .send (HttpRequest.put "hi").serialize ⟨.opened, []⟩,
    .hasSpaceAvailable (.result true) ⟨.opened, [.wrote 20]⟩,
    .send (NSString.encodedAsUtf8 "HTTP/1.0 200 OK\r\n\r\n".toList) ⟨.writing, [.wrote 30]⟩]

/-- The end of the second message is still on the way. -/
def sampleReads : List NSData :=
  [List.take 15 (HttpRequest.put "hi").serialize,
    List.drop 15 (HttpRequest.put "hi").serialize ++ NSString.encodedAsUtf8 "HTTP/1.0".toList]

theorem handled_of_samples :
    let stream := NetworkStream.after sampleEvents {}
    let socket := HttpSocket.receive sampleReads
    (∃ n rest, List.Forall₂ HttpRequestOrResponse.Arrives (sampleMessages.take n) socket.handled ∧
      socket.partialDataBuffer = .ok rest ∧
      sampleReads.flatten = (sampleDatas.take n).flatten ++ rest ∧
      ∀ next ∈ sampleDatas[n]?, rest.length < next.length) ∧
    (sampleReads.flatten = stream.accepted → stream.writeBuffer.contents = [] →
      List.Forall₂ HttpRequestOrResponse.Arrives sampleMessages socket.handled ∧
        socket.partialDataBuffer = .ok []) := by
  have hsendable : ∀ m ∈ sampleMessages, m.Sendable := by
    have hascii : ∀ body ∈ (HttpRequest.put "hi").optionalBody, ∀ c ∈ body, c.toNat < 128 := by
      intro body hbody
      obtain rfl : "hi".toList = body := Option.some.inj hbody
      exact List.forall_iff_forall_mem.mp (by decide)
    have hstatusText : ∀ c ∈ "OK".toList, c ≠ '\r' ∧ c ≠ '\n' :=
      List.forall_iff_forall_mem.mp (by decide)
    exact List.forall_mem_cons.mpr ⟨⟨HttpRequest.wellFormed_put "hi", hascii⟩,
      List.forall_mem_singleton.mpr ⟨hstatusText, rfl, rfl⟩⟩
  have hdatas : Serialized sampleMessages sampleDatas := by
    have hresponse : (HttpResponse.httpResponse200OkWithOptionalBody none).serialize =
        .ok (NSString.encodedAsUtf8 "HTTP/1.0 200 OK\r\n\r\n".toList) := by decide +kernel
    exact .cons ⟨rfl, by decide +kernel⟩ (.cons ⟨hresponse, by decide +kernel⟩ .nil)
  have hfit : NetworkStream.AllFit sampleEvents {} := by
    refine ⟨trivial, ⟨rfl, fun _ => ⟨by decide +kernel, .inr (by decide +kernel)⟩, ?_⟩, ?_,
      ⟨by decide +kernel, fun _ => ⟨by decide +kernel, .inr (by decide +kernel)⟩, ?_⟩, trivial⟩
    · exact fun h => FutureConnected.noConfusion h.1
    · exact fun _ => NetworkStream.writesFit_of_capacity_lt ⟨by decide +kernel, by decide +kernel⟩
        (by decide +kernel)
    · exact fun _ => NetworkStream.writesFit_of_capacity_lt ⟨by decide +kernel, by decide +kernel⟩
        (by decide +kernel)
  exact handled_of_sent hsendable hdatas hfit (by decide +kernel) (by decide +kernel)

end Sample
end SignalIOS.Http
