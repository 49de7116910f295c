import SignalIOS.Http.HttpParser
import SignalIOS.Lib.StreamReassembly

/-! The socket that hands the messages of a stream to its handler. How the network splits the
stream matters where a first line is not that of HTTP. -/
namespace SignalIOS.Http
open SignalIOS.Lib

/-- How reception ends before the stream does. -/
inductive Ending
  /-- The handler is told of an `OperationFailed`, and the lifetime of the socket is cancelled. -/
  | parseFailure
  /-- Nobody catches another exception. -/
  | uncaught (e : Exception)
  deriving DecidableEq, Repr

def Ending.of : Exception → Ending
  | .operationFailed _ => .parseFailure
  | e => .uncaught e

@[ext] structure HttpSocket where
  /-- What the handler has been given, the first first. -/
  handled : List HttpRequestOrResponse := []
  partialDataBuffer : Except Ending NSData := .ok []

namespace HttpSocket

variable [NumberReading]

/-- The loop of the packet handler: the messages it handles, and the buffer it leaves. -/
def extractAll (partialDataBuffer : NSData) : List HttpRequestOrResponse × Except Ending NSData :=
  match _h : tryExtractFromPartialData partialDataBuffer with
  | .error e => ([], .error (.of e))
  | .ok none => ([], .ok partialDataBuffer)
  | .ok (some (s, usedDataLength)) =>
    let (handled, left) := extractAll (partialDataBuffer.drop usedDataLength)
    (s :: handled, left)
termination_by partialDataBuffer.length
decreasing_by
  have hused := used_of_tryExtract _h
  rw [List.length_drop]
  omega

/-- The packet handler. After a failure there are no more packets. -/
def handlePacket (socket : HttpSocket) (data : NSData) : HttpSocket :=
  match socket.partialDataBuffer with
  | .error _ => socket
  | .ok partialDataBuffer =>
    let (handled, left) := extractAll (partialDataBuffer ++ data)
    ⟨socket.handled ++ handled, left⟩

/-- The socket after the network has delivered `reads`. -/
def receive (reads : List NSData) : HttpSocket := reads.foldl handlePacket {}

end HttpSocket

section
variable [NumberReading] {data more stream rest : NSData} {head : Head} {headerLength used : ℕ}
  {m : HttpRequestOrResponse} {e : Exception}

/-- The first line, where it is complete, ends with `\r\n` and has `HTTP` in it. -/
def FirstLineIsHttp (data : NSData) : Prop :=
  ∀ i, FirstAt lf data i → crlf <:+: List.take (i + 1) data ∧ http <:+: List.take (i + 1) data

omit [NumberReading] in
/-- The checks are about the first line, as long as the data grows from its beginning. -/
theorem firstLineIsHttp_iff :
    FirstLineIsHttp stream ↔ ∀ data, data <+: stream → LineChecks data := by
  constructor
  · intro h data hinitial
    have hline : lf <:+: data → crlf <:+: data ∧ http <:+: data := by
      intro hlf
      obtain ⟨i, hi⟩ := exists_firstAt_iff.mpr hlf
      have hlength : i + 1 ≤ data.length := hi.occurs.le_length (by decide)
      obtain ⟨more, rfl⟩ := hinitial
      have hline := h i (hi.append (by decide))
      rw [List.take_append_of_le_length hlength] at hline
      have htake := List.take_prefix (i + 1) data
      exact ⟨hline.1.trans htake.isInfix, hline.2.trans htake.isInfix⟩
    constructor
    · intro hcrlf
      exact (hline (List.IsInfix.trans (by decide) hcrlf)).2
    · intro hlf
      exact (hline hlf).1
  · intro h i hi
    have hlength : i + 1 ≤ stream.length := hi.occurs.le_length (by decide)
    have hchecks := h (List.take (i + 1) stream) (List.take_prefix _ _)
    have hlf : lf <:+: List.take (i + 1) stream := by
      rw [← exists_occursAt_iff]
      have hwhole : OccursAt lf (List.take (i + 1) stream ++ stream.drop (i + 1)) i := by
        rw [List.take_append_drop]
        exact hi.occurs
      exact ⟨i, hwhole.of_append (List.length_take_of_le hlength).ge⟩
    exact ⟨hchecks.endings hlf, hchecks.http (hchecks.endings hlf)⟩

theorem Head.tryExtract_error_append (hheader : headerLength ≤ data.length)
    (h : head.tryExtract data headerLength = .error e) (hlength : (data ++ more).length < 2 ^ 64) :
    head.tryExtract (data ++ more) headerLength = .error e := by
  have happend : (data ++ more).length = data.length + more.length := List.length_append
  rw [tryExtract_eq hheader] at h
  rw [tryExtract_eq (by omega)]
  split_ifs at h with hwait hle
  · rw [if_neg (by omega), if_pos (by omega), content_append hle]
    exact h
  · rw [if_neg (by omega), if_neg (by omega)]
    exact h

/-- What comes after the checks fails in the same way when more arrives. -/
theorem tryExtractFromPartialData_error_append (hchecks : LineChecks data)
    (h : tryExtractFromPartialData data = .error e) (hlength : (data ++ more).length < 2 ^ 64) :
    tryExtractFromPartialData (data ++ more) = .error e := by
  by_cases hinfix : crlf ++ crlf <:+: data
  · obtain ⟨i, hfirst⟩ := exists_firstAt_iff.mpr hinfix
    unfold tryExtractFromPartialData at h ⊢
    rw [tryReadHead_append hchecks hfirst]
    match hread : tryReadHead data with
    | .error e' =>
      rw [hread] at h
      exact h
    | .ok none =>
      rw [hread] at h
      cases h
    | .ok (some (head, headerLength)) =>
      rw [hread] at h
      exact Head.tryExtract_error_append (headerLength_le hread) h hlength
  · unfold tryExtractFromPartialData at h
    rw [tryReadHead_of_no_emptyLine hchecks hinfix] at h
    cases h

theorem tryExtractFromPartialData_nil : tryExtractFromPartialData [] = .ok none := by
  have hchecks : LineChecks [] := by constructor <;> decide
  unfold tryExtractFromPartialData
  rw [tryReadHead_of_no_emptyLine hchecks (by decide)]
  rfl

theorem tryExtractFromPartialData_take
    (h : tryExtractFromPartialData data = .ok (some (m, used))) :
    tryExtractFromPartialData (List.take used data) ≠ .ok none := by
  intro hnone
  obtain ⟨head, headerLength, hread, hextract⟩ := tryExtractFromPartialData_eq_some.mp h
  have hheader := headerLength_le hread
  obtain ⟨i, hi, hhead⟩ := tryReadHead_eq_some.mp hread
  obtain ⟨hwait, hle, hmessage, hused⟩ := (Head.tryExtract_eq_some hheader).mp hextract
  have hlength : (List.take used data).length = used := List.length_take_of_le (by omega)
  have hsplit := List.take_append_drop used data
  by_cases hchecks : LineChecks (List.take used data)
  · have hfirst : FirstAt (crlf ++ crlf) (List.take used data) i := by
      have hwhole := hhead.firstAt
      rw [← hsplit] at hwhole
      exact hwhole.of_append (by decide) (by rw [hlength]; exact (by omega : i + 4 ≤ used))
    have hread' := tryReadHead_append hchecks hfirst (List.drop used data)
    rw [hsplit, hread] at hread'
    have hcontent : head.content (List.take used data ++ List.drop used data) headerLength =
        head.content (List.take used data) headerLength :=
      Head.content_append (by omega) (List.drop used data)
    rw [hsplit] at hcontent
    have hfound := tryExtractFromPartialData_eq_some.mpr ⟨head, headerLength, hread'.symm,
      (Head.tryExtract_eq_some (by omega)).mpr ⟨by omega, by omega, hcontent ▸ hmessage, hused⟩⟩
    rw [hfound] at hnone
    cases hnone
  · unfold tryExtractFromPartialData at hnone
    rw [tryReadHead_of_not_lineChecks hchecks] at hnone
    cases hnone

/-- The socket as a reassembly of messages. -/
def messageExtractor : Extractor UInt8 HttpRequestOrResponse Ending where
  extract data := (tryExtractFromPartialData data).mapError .of
  extract_nil := by rw [tryExtractFromPartialData_nil]; rfl
  used_pos h := (used_of_tryExtract (Throws.mapError_eq_ok.mp h)).1
  used_le h := (used_of_tryExtract (Throws.mapError_eq_ok.mp h)).2
  extract_append more h := by
    have hwhole := tryExtractFromPartialData_append (Throws.mapError_eq_ok.mp h) more
    exact Throws.mapError_eq_ok.mpr hwhole
  extract_take h hnone :=
    tryExtractFromPartialData_take (Throws.mapError_eq_ok.mp h) (Throws.mapError_eq_ok.mp hnone)

theorem extract_messageExtractor :
    messageExtractor.extract data = (tryExtractFromPartialData data).mapError .of := rfl

theorem extractAll_eq_drain (partialDataBuffer : NSData) :
    HttpSocket.extractAll partialDataBuffer = messageExtractor.drain partialDataBuffer := by
  fun_induction HttpSocket.extractAll partialDataBuffer with
  | case1 buffer e h =>
    have hextract : messageExtractor.extract buffer = .error (.of e) := by
      rw [extract_messageExtractor, h]
      rfl
    rw [Extractor.drain_error hextract]
  | case2 buffer h =>
    have hextract : messageExtractor.extract buffer = .ok none := by
      rw [extract_messageExtractor, h]
      rfl
    rw [Extractor.drain_none hextract]
  | case3 buffer s used h handled left hleft ih =>
    have hextract : messageExtractor.extract buffer = .ok (some (s, used)) := by
      rw [extract_messageExtractor, h]
      rfl
    rw [Extractor.drain_some hextract, ← ih, hleft]

/-- The socket does what the reassembly does. -/
theorem receive_eq_outcome (reads : List NSData) :
    (HttpSocket.receive reads).handled = (messageExtractor.outcome reads).1 ∧
      (HttpSocket.receive reads).partialDataBuffer = (messageExtractor.outcome reads).2 := by
  have hstep : ∀ (socket : HttpSocket) (data : NSData),
      ((socket.handlePacket data).handled, (socket.handlePacket data).partialDataBuffer) =
        messageExtractor.receive (socket.handled, socket.partialDataBuffer) data := by
    intro socket data
    obtain ⟨handled, _ | buffer⟩ := socket
    · rfl
    · simp only [HttpSocket.handlePacket, Extractor.receive, extractAll_eq_drain]
  have hrun : ∀ socket : HttpSocket,
      ((reads.foldl HttpSocket.handlePacket socket).handled,
        (reads.foldl HttpSocket.handlePacket socket).partialDataBuffer) =
      reads.foldl messageExtractor.receive (socket.handled, socket.partialDataBuffer) := by
    induction reads with
    | nil => exact fun _ => rfl
    | cons data reads ih =>
      intro socket
      rw [List.foldl_cons, List.foldl_cons, ih, hstep]
  have hinit := hrun {}
  exact ⟨congrArg Prod.fst hinit, congrArg Prod.snd hinit⟩

/-- The stream ends in the same way, with the same messages, however it is split. -/
def ChunkingIndependent (stream : NSData) : Prop :=
  ∀ reads reads' : List NSData, [] ∉ reads → [] ∉ reads' → reads.flatten = stream →
    reads'.flatten = stream → HttpSocket.receive reads = HttpSocket.receive reads'

/-- Where the messages of a stream begin. -/
inductive MessageStart (stream : NSData) : NSData → Prop
  | first : MessageStart stream stream
  | next {rest : NSData} {m : HttpRequestOrResponse} {used : ℕ} (hstart : MessageStart stream rest)
      (hfound : tryExtractFromPartialData rest = .ok (some (m, used))) :
      MessageStart stream (List.drop used rest)

theorem messageStart_iff : MessageStart stream rest ↔ messageExtractor.Start stream rest := by
  constructor
  · intro h
    induction h with
    | first => exact .first
    | next _ hfound ih => exact ih.next (Throws.mapError_eq_ok.mpr hfound)
  · intro h
    induction h with
    | first => exact .first
    | next _ hfound ih => exact ih.next (Throws.mapError_eq_ok.mp hfound)

theorem chunkingIndependent_iff_splitsAlike :
    ChunkingIndependent stream ↔ messageExtractor.SplitsAlike stream := by
  have hsocket : ∀ reads reads', HttpSocket.receive reads = HttpSocket.receive reads' ↔
      messageExtractor.outcome reads = messageExtractor.outcome reads' := by
    intro reads reads'
    have h := receive_eq_outcome reads
    have h' := receive_eq_outcome reads'
    rw [HttpSocket.ext_iff, h.1, h.2, h'.1, h'.2, Prod.ext_iff]
  simp only [ChunkingIndependent, Extractor.SplitsAlike, hsocket]

omit [NumberReading] in
theorem Ending.of_eq_parseFailure : Ending.of e = .parseFailure ↔ ∃ d, e = .operationFailed d := by
  cases e <;> simp [Ending.of]

theorem failsEventually_iff (hlength : rest.length < 2 ^ 64) :
    messageExtractor.FailsEventually rest ↔
      FirstLineIsHttp rest ∨ ∃ d, tryExtractFromPartialData rest = .error (.operationFailed d) := by
  have hunchecked : ∀ data, ¬ LineChecks data →
      tryExtractFromPartialData data = .error (.operationFailed none) := by
    intro data hchecks
    unfold tryExtractFromPartialData
    rw [tryReadHead_of_not_lineChecks hchecks]
    rfl
  constructor
  · intro h
    by_cases hline : FirstLineIsHttp rest
    · exact Or.inl hline
    · right
      rw [firstLineIsHttp_iff] at hline
      push Not at hline
      obtain ⟨data, hinitial, hchecks⟩ := hline
      have hdata : messageExtractor.extract data = .error .parseFailure := by
        rw [extract_messageExtractor, hunchecked data hchecks]
        rfl
      have hrest := h data hinitial _ hdata
      obtain ⟨e, he, hof⟩ := Throws.mapError_eq_error.mp hrest
      obtain ⟨d, rfl⟩ := Ending.of_eq_parseFailure.mp hof
      exact ⟨d, he⟩
  · intro h buffer hinitial ending hfail
    obtain ⟨e, he, hof⟩ := Throws.mapError_eq_error.mp hfail
    by_cases hchecks : LineChecks buffer
    · obtain ⟨more, rfl⟩ := hinitial
      have hwhole := tryExtractFromPartialData_error_append hchecks he hlength
      exact Throws.mapError_eq_error.mpr ⟨e, hwhole, hof⟩
    · rw [hunchecked buffer hchecks] at he
      cases he
      rcases h with hline | ⟨d, hd⟩
      · exact absurd (firstLineIsHttp_iff.mp hline buffer hinitial) hchecks
      · exact Throws.mapError_eq_error.mpr ⟨_, hd, hof⟩

theorem MessageStart.length_le (h : MessageStart stream rest) : rest.length ≤ stream.length := by
  induction h with
  | first => exact Nat.le_refl _
  | next _ _ ih =>
    rw [List.length_drop]
    omega

/-- Exactly where a message begins with a line that is not of HTTP, and the parser gets over it
when it has the stream as a whole, the reads of the network make a difference. -/
theorem chunkingIndependent_iff (hlength : stream.length < 2 ^ 64) :
    ChunkingIndependent stream ↔ ∀ rest, MessageStart stream rest →
      FirstLineIsHttp rest ∨ ∃ d, tryExtractFromPartialData rest = .error (.operationFailed d) := by
  rw [chunkingIndependent_iff_splitsAlike, Extractor.splitsAlike_iff]
  constructor
  · intro h rest hstart
    have hrest := hstart.length_le
    exact (failsEventually_iff (by omega)).mp (h rest (messageStart_iff.mp hstart))
  · intro h rest hstart
    have hrest := (messageStart_iff.mpr hstart).length_le
    exact (failsEventually_iff (by omega)).mpr (h rest (messageStart_iff.mpr hstart))

end

section
attribute [local instance] digitReading

/-- `HTTP` is looked for in all that has been read, and here it is in the second line. -/
def misplacedHttp : NSData := NSString.encodedAsUtf8 "A B C\r\nX:HTTP\r\n\r\n".toList

theorem tryExtract_misplacedHttp :
    ∃ m, tryExtractFromPartialData misplacedHttp = .ok (some (m, 17)) := by
  have hchecks : LineChecks misplacedHttp := lineChecks_iff.mpr (by decide)
  have hfirst : FirstAt (crlf ++ crlf) misplacedHttp 13 :=
    (NSData.tryFindIndexOf_eq_some (by decide)).mp (by decide)
  have hhead : tryReadHead misplacedHttp = .ok (some (⟨"A".toList, "B".toList, ["C".toList],
      AList.insert "X".toList "HTTP".toList ∅, none⟩, 17)) :=
    tryReadHead_eq_some.mpr ⟨13, rfl, hchecks, hfirst, "A B C\r\nX:HTTP".toList, by decide, rfl⟩
  exact ⟨_, tryExtractFromPartialData_eq_some.mpr ⟨_, _, hhead, rfl⟩⟩

/-- Read as a whole it is a request. Read up to the first line break it is a parse failure. -/
theorem not_chunkingIndependent_misplacedHttp : ¬ ChunkingIndependent misplacedHttp := by
  intro h
  obtain ⟨m, hwhole⟩ := tryExtract_misplacedHttp
  have hline : messageExtractor.extract (List.take 7 misplacedHttp) = .error .parseFailure := by
    have hchecks : ¬ LineChecks (List.take 7 misplacedHttp) :=
      fun hchecks => absurd (lineChecks_iff.mp hchecks) (by decide)
    rw [extract_messageExtractor, tryExtractFromPartialData,
      tryReadHead_of_not_lineChecks hchecks]
    rfl
  have hfail := (chunkingIndependent_iff_splitsAlike.mp h).failsEventually _
    (List.take_prefix 7 _) _ hline
  rw [extract_messageExtractor, hwhole] at hfail
  cases hfail

theorem chunkingIndependent_misplacedHttp_iff :
    misplacedHttp.length < 2 ^ 64 ∧ (ChunkingIndependent misplacedHttp ↔
      ∀ rest, MessageStart misplacedHttp rest → FirstLineIsHttp rest ∨
        ∃ d, tryExtractFromPartialData rest = .error (.operationFailed d)) :=
  ⟨by decide, chunkingIndependent_iff (by decide)⟩

end
end SignalIOS.Http
