import SignalIOS.Http.HttpMessages
import SignalIOS.Http.ResponsePairing
import SignalIOS.Util.CodeUnits

/-! Calls of `asyncResponseForRequest` that fail to send. -/
namespace SignalIOS.Http
open SignalIOS.Lib
open CodeUnits (ofString)

/-- The texts of an `HttpRequest`, which can be any strings. -/
structure RequestTexts where
  method : CodeUnits
  location : CodeUnits
  headers : List (CodeUnits × CodeUnits)
  optionalBody : Option CodeUnits

namespace RequestTexts

def toHttp (request : RequestTexts) : CodeUnits :=
  request.method ++ ofString " ".toList ++ request.location ++
    ofString " HTTP/1.0\r\n".toList ++
    request.headers.flatMap (fun entry =>
      entry.1 ++ ofString ": ".toList ++ entry.2 ++ ofString "\r\n".toList) ++
    ofString "\r\n".toList ++ request.optionalBody.getD []

def serialize (request : RequestTexts) : Throws NSData := request.toHttp.encodedAsUtf8

/-- `sendHttpRequestOrResponse`, over a stream or a UDP socket whose `send` is `sendRaw`. -/
def send (sendRaw : NSData → Throws Unit) (request : RequestTexts) : Throws Unit := do
  sendRaw (← request.serialize)

def ofRequest (request : HttpRequest) : RequestTexts where
  method := ofString request.method
  location := ofString request.location
  headers := request.headers.entries.map fun entry => (ofString entry.1, ofString entry.2)
  optionalBody := request.optionalBody.map ofString

theorem toHttp_ofRequest (request : HttpRequest) :
    (ofRequest request).toHttp = ofString request.toHttp := by
  have hheaders : (ofRequest request).headers.flatMap (fun entry =>
      entry.1 ++ ofString ": ".toList ++ entry.2 ++ ofString "\r\n".toList) =
      ofString (request.headers.entries.flatMap fun entry =>
        entry.1 ++ ": ".toList ++ entry.2 ++ "\r\n".toList) := by
    simp only [ofRequest, List.flatMap_map, ofString, List.flatMap_assoc, List.flatMap_append]
  have hbody : (ofRequest request).optionalBody.getD [] =
      ofString (request.optionalBody.getD []) := by
    simp only [ofRequest]
    cases request.optionalBody with
    | none => rfl
    | some body => rfl
  rw [toHttp, hheaders, hbody]
  simp only [HttpRequest.toHttp, CodeUnits.ofString_append, ofRequest]

/-- A request of characters never fails to serialize. -/
theorem serialize_ofRequest (request : HttpRequest) :
    (ofRequest request).serialize = .ok request.serialize := by
  rw [serialize, toHttp_ofRequest, CodeUnits.encodedAsUtf8_ofString]
  rfl

end RequestTexts

/-- What `asyncResponseForRequest` returns: the future that it has enqueued, or a failed one. -/
inductive ReturnedFuture
  | enqueued (ev : FutureRef)
  | failed
  deriving DecidableEq, Repr

namespace HttpManager

variable {s : HttpManager} {request : RequestTexts} {sendRaw : NSData → Throws Unit}

/-- A whole call of `asyncResponseForRequest` that nothing comes in between. It catches an
`OperationFailed`, and no other exception. -/
def responseFor (sendRaw : NSData → Throws Unit) (request : RequestTexts) (s : HttpManager) :
    Throws ReturnedFuture × HttpManager :=
  match s.asyncResponseForRequest with
  | none => (.error .badState, s)
  | some t =>
    if s.lifetimeCancelled then (.ok .failed, t)
    else
      let ev := s.futures.next
      match request.send sendRaw with
      | .ok () => (.ok (.enqueued ev), (t.send ev).getD t)
      | .error (.operationFailed _) => (.ok .failed, (t.sendRaises ev).getD t)
      | .error ex => (.error ex, (t.sendRaises ev).getD t)

/-- What the call does, the events of a manager do. -/
theorem exists_run_responseFor {tr : History HttpManager Event} (h : machine.Run tr)
    (sendRaw : NSData → Throws Unit) (request : RequestTexts) :
    ∃ tr', machine.Run tr' ∧
      machine.last tr' = ((machine.last tr).responseFor sendRaw request).2 := by
  have hstep {tr : History HttpManager Event} (h : machine.Run tr) (e : Event) :
      ∃ tr', machine.Run tr' ∧
        machine.last tr' = (machine.step (machine.last tr) e).getD (machine.last tr) := by
    cases he : machine.step (machine.last tr) e with
    | none => exact ⟨tr, h, rfl⟩
    | some t => exact ⟨(e, t) :: tr, ⟨h, he⟩, rfl⟩
  unfold responseFor
  cases hlock : (machine.last tr).asyncResponseForRequest with
  | none => exact ⟨tr, h, rfl⟩
  | some t =>
    have ht : machine.Run ((.asyncResponseForRequest, t) :: tr) := ⟨h, hlock⟩
    dsimp only
    split
    · exact ⟨_, ht, rfl⟩
    · split
      · exact hstep ht (.send _)
      · exact hstep ht (.sendRaises _)
      · exact hstep ht (.sendRaises _)

theorem responseFor_not_started (hstarted : s.isStarted = false) :
    s.responseFor sendRaw request = (.error .badState, s) := by
  unfold responseFor HttpManager.asyncResponseForRequest
  rw [if_pos (by rw [hstarted]; rfl)]

theorem responseFor_cancelled (hstarted : s.isStarted = true)
    (hcancelled : s.lifetimeCancelled = true) :
    s.responseFor sendRaw request = (.ok .failed, s) := by
  unfold responseFor HttpManager.asyncResponseForRequest
  rw [if_neg (by simp [hstarted]), if_pos hcancelled]
  simp only [if_pos hcancelled]

/-- The future is enqueued before the request is serialized, and nobody takes it out again. -/
theorem responseFor_raises (hstarted : s.isStarted = true)
    (hcancelled : s.lifetimeCancelled = false) {description : Option String}
    (hraises : request.send sendRaw = .error (.operationFailed description)) :
    (s.responseFor sendRaw request).1 = .ok .failed ∧
      (s.responseFor sendRaw request).2.eventualResponseQueue =
        s.eventualResponseQueue ++ [s.futures.next] := by
  have hlive : ¬ s.lifetimeCancelled = true := Bool.eq_false_iff.mp hcancelled
  unfold responseFor HttpManager.asyncResponseForRequest
  rw [if_neg (by simp [hstarted]), if_neg hlive]
  simp only [if_neg hlive, hraises, sendRaises, List.mem_append, List.mem_singleton, or_true,
    if_true, Option.getD_some]
  exact ⟨trivial, trivial⟩

/-- A call that cannot send leaves the queue as it was exactly where it does not get to sending. -/
theorem responseFor_leaves_queue_iff (s : HttpManager) {description : Option String}
    (hraises : request.send sendRaw = .error (.operationFailed description)) :
    ((s.responseFor sendRaw request).1 = .ok .failed ∧
      (s.responseFor sendRaw request).2.eventualResponseQueue = s.eventualResponseQueue) ↔
    s.isStarted = true ∧ s.lifetimeCancelled = true := by
  cases hstarted : s.isStarted with
  | false =>
    rw [responseFor_not_started hstarted]
    simp
  | true =>
    cases hcancelled : s.lifetimeCancelled with
    | true =>
      rw [responseFor_cancelled hstarted hcancelled]
      simp
    | false =>
      obtain ⟨-, hqueue⟩ := responseFor_raises hstarted hcancelled hraises
      rw [hqueue]
      simp

/-- Half of a surrogate pair. -/
def unencodable : RequestTexts where
  method := ofString "GET".toList
  location := [0xD83D]
  headers := []
  optionalBody := none

theorem send_unencodable (sendRaw : NSData → Throws Unit) :
    unencodable.send sendRaw = .error (.operationFailed "Not a UTF8 string.") := rfl

/-- The call fails and leaves its future in the queue, where the next response goes. The request
that it answers gets none. -/
theorem not_responseFor_leaves_queue : ∃ tr, machine.exec [.start] = some tr ∧
    (machine.last tr).eventualResponseQueue = [] ∧
    ((machine.last tr).responseFor (fun _ => .ok ()) unencodable).1 = .ok .failed ∧
    ((machine.last tr).responseFor (fun _ => .ok ()) unencodable).2.eventualResponseQueue = [0] ∧
    ∃ tr', machine.exec [.start, .asyncResponseForRequest, .sendRaises 0,
        .asyncResponseForRequest, .send 1, .response] = some tr' ∧
      (machine.last tr').futures.get 0 = .result 1 ∧
      (machine.last tr').futures.get 1 = .incomplete :=
  ⟨_, rfl, rfl, rfl, rfl, _, rfl, rfl, rfl⟩

theorem responseFor_leaves_queue_unencodable :
    let s : HttpManager := { isStarted := true, lifetimeCancelled := true }
    (s.responseFor (fun _ => .ok ()) unencodable).1 = .ok .failed ∧
      (s.responseFor (fun _ => .ok ()) unencodable).2.eventualResponseQueue = [] :=
  (responseFor_leaves_queue_iff { isStarted := true, lifetimeCancelled := true }
    (send_unencodable _)).mpr ⟨rfl, rfl⟩

end HttpManager
end SignalIOS.Http
