import Mathlib.Algebra.Order.Ring.Rat
import SignalIOS.Lib.Runs
import SignalIOS.Util.NSString

/-! `MessageFetcherJob`: the responses it parses, and a fetch run against the queue of a server. -/
namespace SignalIOS.Jobs
open SignalIOS.Lib

/-- A value of a response. -/
inductive JSON
  | null
  | bool (value : Bool)
  | number (value : ℚ)
  | string (value : NSString)
  | array (values : List JSON)
  | dictionary (entries : List (NSString × JSON))

namespace JSON

/-- The `NSNumber` that a number or a Boolean is. -/
def numberValue? : JSON → Option ℚ
  | .bool value => some (if value then 1 else 0)
  | .number value => some value
  | _ => none

def wholeValue? (value : JSON) : Option ℤ := value.numberValue?.map fun q => q.num.tdiv q.den

/-- `as? Int32`. A number of another size is cut to the bits that fit. -/
def asInt32? (value : JSON) : Option Int32 := value.wholeValue?.map Int32.ofInt

def asUInt32? (value : JSON) : Option UInt32 := value.wholeValue?.map UInt32.ofInt

def asUInt64? (value : JSON) : Option UInt64 := value.wholeValue?.map UInt64.ofInt

def asBool? (value : JSON) : Option Bool := value.numberValue?.map (· != 0)

def asString? : JSON → Option NSString
  | .string value => some value
  | _ => none

def asDictionary? : JSON → Option (List (NSString × JSON))
  | .dictionary entries => some entries
  | _ => none

/-- `as? [[String: Any]]`, which no array passes that has anything but dictionaries. -/
def asDictionaries? : JSON → Option (List (List (NSString × JSON)))
  | .array values => values.mapM asDictionary?
  | _ => none

end JSON

/-- What the envelopes are built with: the raw values that are types of envelopes, and the
decoder of base64 texts. -/
class EnvelopeCoding where
  isEnvelopeType : Int32 → Bool
  dataFromBase64 : NSString → Option NSData

structure Envelope where
  type : Int32
  relay : Option NSString
  timestamp : UInt64
  source : NSString
  sourceDevice : UInt32
  legacyMessage : Option NSData
  content : Option NSData
  deriving DecidableEq

section
variable [EnvelopeCoding]

def buildEnvelope (messageDict : List (NSString × JSON)) : Option Envelope := do
  let type ← (messageDict.lookup "type".toList).bind JSON.asInt32?
  guard (EnvelopeCoding.isEnvelopeType type)
  let relay := (messageDict.lookup "relay".toList).bind JSON.asString?
  let timestamp ← (messageDict.lookup "timestamp".toList).bind JSON.asUInt64?
  let source ← (messageDict.lookup "source".toList).bind JSON.asString?
  let sourceDevice ← (messageDict.lookup "sourceDevice".toList).bind JSON.asUInt32?
  let encodedLegacyMessage := (messageDict.lookup "message".toList).bind JSON.asString?
  let encodedContent := (messageDict.lookup "content".toList).bind JSON.asString?
  return {
    type, relay, timestamp, source, sourceDevice
    legacyMessage := encodedLegacyMessage.bind EnvelopeCoding.dataFromBase64
    content := encodedContent.bind EnvelopeCoding.dataFromBase64 }

/-- The envelopes, and whether there are more. -/
def parseMessagesResponse (responseObject : Option JSON) : Option (List Envelope × Bool) := do
  let responseObject ← responseObject
  let responseDict ← responseObject.asDictionary?
  let messageDicts ← (responseDict.lookup "messages".toList).bind JSON.asDictionaries?
  let moreMessages := ((responseDict.lookup "more".toList).bind JSON.asBool?).getD false
  return (messageDicts.filterMap buildEnvelope, moreMessages)

end

/-- A message of the queue of the server, with its place there. -/
abbrev QueuedMessage := JSON × ℕ

/-- The request that acknowledges a delivery. The server knows the message by its source and its
timestamp; `place` is the one that the envelope came from. -/
structure Acknowledgement where
  source : NSString
  timestamp : UInt64
  place : ℕ
  deriving DecidableEq

/-- What a fetch run waits for: the server's answer to its page request, or its turn to handle the
answer. `delegated` is left to the socket manager. -/
inductive Fetch
  | requested
  | answered (page : List QueuedMessage) (responseObject : Option JSON)
  | delegated
  | ended

/-- A fetch run and the server: the places that are acknowledged there, the acknowledgements on
their way, the number of page requests, and what was handed to the message manager. -/
structure FetchRun where
  acknowledged : List ℕ
  inFlight : List Acknowledgement
  fetch : Fetch
  requests : ℕ
  handed : List (ℕ × Envelope)

inductive Event
  | serve
  | receive (isCensored : Bool)
  | fail
  | acknowledge (request : Acknowledgement)
  | acknowledgementFails (request : Acknowledgement)

/-- The queue of the server at the start, and how many messages are on a page. -/
structure Server where
  messages : List JSON
  pageSize : ℕ

namespace Server

def unacknowledged (server : Server) (acknowledged : List ℕ) : List QueuedMessage :=
  server.messages.zipIdx.filter fun message => message.2 ∉ acknowledged

/-- The oldest messages that are not acknowledged. -/
def page (server : Server) (acknowledged : List ℕ) : List QueuedMessage :=
  (server.unacknowledged acknowledged).take server.pageSize

def more (server : Server) (acknowledged : List ℕ) : Bool :=
  server.pageSize < (server.unacknowledged acknowledged).length

end Server

def messagesResponse (page : List QueuedMessage) (more : Bool) : JSON :=
  .dictionary [("messages".toList, .array (page.map Prod.fst)), ("more".toList, .bool more)]

section
variable [EnvelopeCoding]

/-- The envelope of a message that is well formed. -/
def JSON.envelope? (message : JSON) : Option Envelope := message.asDictionary?.bind buildEnvelope

namespace FetchRun

def runAsync (s : FetchRun) (isCensored : Bool) : FetchRun :=
  if isCensored then { s with fetch := .requested, requests := s.requests + 1 }
  else { s with fetch := .delegated }

/-- `handleReceivedEnvelope` of the message manager, and `acknowledgeDelivery`. -/
def deliver (s : FetchRun) (delivery : ℕ × Envelope) : FetchRun :=
  { s with
    handed := s.handed ++ [delivery]
    inFlight := s.inFlight ++ [⟨delivery.2.source, delivery.2.timestamp, delivery.1⟩] }

/-- The places that the envelopes of a page come from. -/
def places (page : List QueuedMessage) : List ℕ :=
  (page.filter fun message => message.1.envelope?.isSome).map Prod.snd

def receive (s : FetchRun) (page : List QueuedMessage) (responseObject : Option JSON)
    (isCensored : Bool) : FetchRun :=
  match parseMessagesResponse responseObject with
  | none => { s with fetch := .ended }
  | some (envelopes, more) =>
    let s := ((places page).zip envelopes).foldl deliver s
    if more then s.runAsync isCensored else { s with fetch := .ended }

end FetchRun

def step (server : Server) (s : FetchRun) : Event → Option FetchRun
  | .serve => match s.fetch with
    | .requested =>
      let page := server.page s.acknowledged
      let response := messagesResponse page (server.more s.acknowledged)
      some { s with fetch := .answered page (some response) }
    | _ => none
  | .receive isCensored => match s.fetch with
    | .answered page responseObject => some (s.receive page responseObject isCensored)
    | _ => none
  | .fail => match s.fetch with
    | .requested => some { s with fetch := .ended }
    | _ => none
  | .acknowledge request =>
    if request ∈ s.inFlight then some { s with
      inFlight := s.inFlight.erase request, acknowledged := request.place :: s.acknowledged }
    else none
  | .acknowledgementFails request =>
    if request ∈ s.inFlight then some { s with inFlight := s.inFlight.erase request } else none

/-- One fetch run. -/
def machine (server : Server) (isCensored : Bool) : Machine FetchRun Event where
  init := FetchRun.runAsync ⟨[], [], .ended, 0, []⟩ isCensored
  step := step server

end

end SignalIOS.Jobs
