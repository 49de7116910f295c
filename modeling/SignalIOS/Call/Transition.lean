import SignalIOS.Call.Session

/-! The transitions between sessions: everything that one turn of the main queue can do. -/
namespace SignalIOS.Call
open SignalIOS.Lib

/-- How the set-up of a call can go on without the call service noticing. -/
inductive SetUp.Advance : SetUp → SetUp → Prop
  | created (sdp : String) : Advance .offer (.localDescription sdp)
  | described (sdp : String) : Advance (.localDescription sdp) .sending
  | negotiated : Advance .negotiation .sending
  | obsolete (sdp : String) (error : Error) : Advance (.iceServers (some sdp)) (.failed error)
  | noOffer (error : Error) : Advance .offer (.failed error)
  | notDescribed (sdp : String) (error : Error) : Advance (.localDescription sdp) (.failed error)
  | notNegotiated (error : Error) : Advance .negotiation (.failed error)
  | notSent (error : Error) : Advance .sending (.failed error)
  | timedOut (error : Error) : Advance .race (.failed error)
  | caught (error : Error) : Advance (.failed error) .caught
  | finished : Advance .connected .finished
  | failed : Advance .caught .finished

namespace Session

/-- Turns that leave the current call and its client alone. -/
inductive Aside (S : Session) : Event → Session → Prop
  | created (number : String) (id : UInt64) :
    Aside S (.user (.newOutgoingCall number id)) (S.create number id)
  | refused {c d : CallRef} (hc : c ∈ S.unplaced) (hd : S.call = some d) :
    Aside S (.user (.handleOutgoingCall c)) (S.refuse c)
  | turnedAway (id : UInt64) (sdp number : String) (hasOngoingRedphoneCall : Bool) :
    Aside S (.receivedOffer id sdp number hasOngoingRedphoneCall) (S.turnAway number id)
  | advanced {c : CallRef} (k : Continuation) {stage : SetUp} (h : (S.setUp c).Advance stage) :
    Aside S (.continuation c k) (S.stage c stage)
  | raced {c : CallRef} (hc : S.setUp c = .sending) : Aside S (.continuation c .sent) (S.race c)

/-- Turns after which no call is current. The event asked `i` of the call before. -/
inductive Ending (S : Session) : Event → Input → Session → Prop
  | localHangup (e : Event) {c : CallRef} (hcall : S.call = some c) :
    Ending S e .userDeclines (S.finish c fun k => { k with state := .localHangup })
  | remoteHangup (e : Event) {c : CallRef} (hcall : S.call = some c)
    (hstate : (S.calls.get c).state.isMissedByHangup = false) :
    Ending S e .remoteHangup (S.finish c fun k => { k with state := .remoteHangup })
  | missed (e : Event) {c : CallRef} (hcall : S.call = some c)
    (hstate : (S.calls.get c).state.isMissedByHangup = true) :
    Ending S e .remoteHangup ((S.miss c).finish c fun k => { k with state := .remoteHangup })
  | remoteBusy (e : Event) {c : CallRef} (hcall : S.call = some c) :
    Ending S e .remoteBusy (S.finish c fun k => { k with state := .remoteBusy })
  | reset (e : Event) {c : CallRef} (hcall : S.call = some c) : Ending S e .reset S.clear
  | failed (e : Event) (i : Input) {c : CallRef} (error : CallError) (hcall : S.call = some c)
    (hi : i = .failure ∨ S.client = none ∧ (i = .userAnswers ∨ i = .userDeclines)) :
    Ending S e i (S.fail c error)
  | answerFailed (e : Event) {c : CallRef} (error : CallError) (hcall : S.call = some c)
    (hclient : S.client = none) : Ending S e .answer (S.sendPending.fail c error)
  | caughtFailed {c d : CallRef} {reason : Error} (error : CallError) (hcall : S.call = some c)
    (hd : S.setUp d = .failed reason) :
    Ending S (.continuation d .caught) .failure ((S.stage d .caught).fail c error)
  | cleared (e : Event) (hcall : S.call = none) : Ending S e .other S.clear
  | caughtCleared {d : CallRef} {reason : Error} (hcall : S.call = none)
    (hd : S.setUp d = .failed reason) :
    Ending S (.continuation d .caught) .other (S.stage d .caught).clear

/-- One turn with the event `e`, which asks `i` of the current call of `S`. -/
inductive Turn (S : Session) : Event → Input → Session → Prop
  | idle (e : Event) : Turn S e .other S
  | aside {e : Event} {S' : Session} (h : S.Aside e S') : Turn S e .other S'
  | placed {c : CallRef} (hc : c ∈ S.unplaced) (hcall : S.call = none) (hclient : S.client = none) :
    Turn S (.user (.handleOutgoingCall c)) .other (S.place c .dialing (.iceServers none))
  | placedStale {c : CallRef} {client : ClientRef} (hc : c ∈ S.unplaced) (hcall : S.call = none)
    (hclient : S.client = some client) :
    Turn S (.user (.handleOutgoingCall c)) .other (S.place c .localFailure .notStarted)
  | offered (id : UInt64) (sdp number : String) (hcall : S.call = none) :
    Turn S (.receivedOffer id sdp number false) .other (S.offer number id sdp)
  | madeOutgoing {c : CallRef} (result : Except NSError TurnServerInfo)
    (hc : S.setUp c = .iceServers none) :
    Turn S (.continuation c (.iceServers result)) .other
      (S.makeClient c { iceServers := getIceServers result, callDirection := .outgoing } .offer)
  | madeIncoming {c : CallRef} (result : Except NSError TurnServerInfo) {sdp : String}
    (hc : S.setUp c = .iceServers (some sdp)) (hcall : S.call = some c) :
    Turn S (.continuation c (.iceServers result)) .other
      (S.makeClient c { iceServers := getIceServers result, callDirection := .incoming }
        .negotiation)
  | rang (e : Event) {c : CallRef} {state : CallState} (hcall : S.call = some c)
    (hstate : (S.calls.get c).state = .dialing ∧ state = .remoteRinging ∨
      (S.calls.get c).state = .answering ∧ state = .localRinging) :
    Turn S e .other (S.ring c state)
  | connected (e : Event) {c : CallRef} {client : ClientRef} (hcall : S.call = some c)
    (hclient : S.client = some client) : Turn S e .accepted (S.connect c client)
  | answered (e : Event) {c : CallRef} {client : ClientRef} (hcall : S.call = some c)
    (hclient : S.client = some client) : Turn S e .userAnswers (S.answer c client)
  | muted (isMuted : Bool) {c : CallRef} {client : ClientRef} (hcall : S.call = some c)
    (hclient : S.client = some client) :
    Turn S (.user (.setIsMuted isMuted)) .other (S.mute c client isMuted)
  | videoSet (e : Event) (hasLocalVideo : Bool) {c : CallRef} {client : ClientRef}
    (hcall : S.call = some c) (hclient : S.client = some client) :
    Turn S e .other (S.setVideo c client hasLocalVideo)
  | application (e : Event) (inBackground : Bool) : Turn S e .other (S.setBackground inBackground)
  | answerReceived (e : Event) {c : CallRef} (hcall : S.call = some c) (hclient : S.client ≠ none) :
    Turn S e .answer S.sendPending
  | buffered (e : Event) {c : CallRef} (message : OWSCallIceUpdateMessage)
    (hcall : S.call = some c) (himmediate : S.immediate = false) :
    Turn S e (.candidate message) (S.buffer message)
  | sent (e : Event) {c : CallRef} (message : OWSCallIceUpdateMessage)
    (hcall : S.call = some c) (himmediate : S.immediate = true) :
    Turn S e (.candidate message) (S.send message)
  | ended {e : Event} {i : Input} {S' : Session} (h : S.Ending e i S') : Turn S e i S'

end Session
end SignalIOS.Call
