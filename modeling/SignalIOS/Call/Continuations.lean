import SignalIOS.Call.Transition

/-! The turns in which a set-up chain goes on: in which state, and what they do. -/
namespace SignalIOS.Call

namespace State
variable {s : State} {c : CallRef}

/-- What a continuation of `c` finds where it can run, and what comes of it. -/
inductive Continues (s : State) (c : CallRef) : Continuation → Except Fault State → Prop
  | outgoingIceServers (result : Except NSError TurnServerInfo)
    (hsetUp : s.setUp c = .iceServers none) :
    Continues s c (.iceServers result) (.ok (s.outgoingIceServers c (getIceServers result)))
  | incomingIceServers (result : Except NSError TurnServerInfo) {sdp : String}
    (hsetUp : s.setUp c = .iceServers (some sdp)) :
    Continues s c (.iceServers result) (.ok (s.incomingIceServers c (getIceServers result) sdp))
  | offer (sdp : String) {client : ClientRef} (hsetUp : s.setUp c = .offer)
    (hclient : s.peerConnectionClient = some client) :
    Continues s c (.offer sdp)
      (.ok ((s.emit (.setLocalSessionDescription client sdp)).setSetUp c (.localDescription sdp)))
  /-- `self.peerConnectionClient!` is `nil`. -/
  | noClient (sdp : String) (hsetUp : s.setUp c = .offer)
    (hclient : s.peerConnectionClient = none) :
    Continues s c (.offer sdp) (.error .unwrappedNil)
  | localDescription {sdp : String} (hsetUp : s.setUp c = .localDescription sdp) :
    Continues s c .localDescription (.ok (s.outgoingLocalDescription c sdp))
  | negotiated (sdp : String) (hsetUp : s.setUp c = .negotiation) :
    Continues s c (.negotiated sdp) (.ok (s.incomingNegotiated c sdp))
  | outgoingSent (hsetUp : s.setUp c = .sending)
    (hdirection : (s.calls.get c).direction = .outgoing) :
    Continues s c .sent (.ok (s.raceConnectedPromise c))
  | incomingSent (hsetUp : s.setUp c = .sending)
    (hdirection : (s.calls.get c).direction = .incoming) :
    Continues s c .sent (.ok (s.incomingSent c))
  | rejected (error : NSError) (hadvance : (s.setUp c).Advance (.failed (.nsError error))) :
    Continues s c (.rejected error) (.ok (s.setSetUp c (.failed (.nsError error))))
  | connectingTimeout (hsetUp : s.setUp c = .race) :
    Continues s c .connectingTimeout
      (.ok (s.setSetUp c (.failed (.callError (s.connectingTimeoutError c)))))
  | outgoingCaught {error : Error} (hsetUp : s.setUp c = .failed error)
    (hdirection : (s.calls.get c).direction = .outgoing) :
    Continues s c .caught (.ok (s.outgoingCatch c error))
  | incomingCaught {error : Error} (hsetUp : s.setUp c = .failed error)
    (hdirection : (s.calls.get c).direction = .incoming) :
    Continues s c .caught (.ok (s.incomingCatch c error))
  | finished (hsetUp : s.setUp c = .connected ∨ s.setUp c = .caught) :
    Continues s c .finished (.ok ((s.setSetUp c .finished).endBackgroundTask c))
  | remoteDescription (hpending : c ∈ s.remoteDescriptions) :
    Continues s c .remoteDescription
      (.ok { s with remoteDescriptions := s.remoteDescriptions.erase c })
  | remoteDescriptionRejected (error : NSError) (hpending : c ∈ s.remoteDescriptions) :
    Continues s c (.remoteDescriptionRejected error)
      (.ok ({ s with remoteDescriptions := s.remoteDescriptions.erase c }.handleFailedCall
        (.externalError error)))
  | messageSettled : Continues s c .messageSettled (.ok s)
  | backgroundTaskExpired (htask : s.backgroundTask c = .running) :
    Continues s c .backgroundTaskExpired (.ok (s.setBackgroundTask c .expired))
  | backgroundTimeout (htask : s.backgroundTask c = .expired) :
    Continues s c .backgroundTimeout (.ok ((s.setBackgroundTask c .ended).backgroundTimeout c))

theorem continues_rejected {error : NSError} {r : Except Fault State}
    (h : s.continuation c (.rejected error) = some r) : s.Continues c (.rejected error) r := by
  simp only [continuation] at h
  split at h
  case h_5 => cases h
  all_goals
    rename_i hsetUp
    obtain rfl := Option.some.inj h
    refine .rejected error ?_
    rw [hsetUp]
  · exact .noOffer _
  · exact .notDescribed _ _
  · exact .notNegotiated _
  · exact .notSent _

theorem continues_of_continuation {k : Continuation} {r : Except Fault State}
    (h : s.continuation c k = some r) : s.Continues c k r := by
  cases k with
  | iceServers result =>
    simp only [continuation] at h
    split at h
    · rename_i hsetUp
      obtain rfl := Option.some.inj h
      exact .outgoingIceServers result hsetUp
    · rename_i hsetUp
      obtain rfl := Option.some.inj h
      exact .incomingIceServers result hsetUp
    · cases h
  | offer sdp =>
    simp only [continuation, outgoingOffer] at h
    split at h
    · rename_i hsetUp
      cases hclient : s.peerConnectionClient with
      | none =>
        rw [hclient] at h
        obtain rfl := Option.some.inj h
        exact .noClient sdp hsetUp hclient
      | some client =>
        rw [hclient] at h
        obtain rfl := Option.some.inj h
        exact .offer sdp hsetUp hclient
    · cases h
  | localDescription =>
    simp only [continuation] at h
    split at h
    · rename_i hsetUp
      obtain rfl := Option.some.inj h
      exact .localDescription hsetUp
    · cases h
  | negotiated sdp =>
    simp only [continuation] at h
    split_ifs at h with hsetUp
    obtain rfl := Option.some.inj h
    exact .negotiated sdp hsetUp
  | sent =>
    simp only [continuation] at h
    split_ifs at h with hsetUp
    split at h
    · rename_i hdirection
      obtain rfl := Option.some.inj h
      exact .outgoingSent hsetUp hdirection
    · rename_i hdirection
      obtain rfl := Option.some.inj h
      exact .incomingSent hsetUp hdirection
  | rejected error => exact continues_rejected h
  | connectingTimeout =>
    simp only [continuation] at h
    split_ifs at h with hsetUp
    obtain rfl := Option.some.inj h
    exact .connectingTimeout hsetUp
  | caught =>
    simp only [continuation] at h
    split at h
    · rename_i hsetUp
      split at h
      · rename_i hdirection
        obtain rfl := Option.some.inj h
        exact .outgoingCaught hsetUp hdirection
      · rename_i hdirection
        obtain rfl := Option.some.inj h
        exact .incomingCaught hsetUp hdirection
    · cases h
  | finished =>
    simp only [continuation] at h
    split_ifs at h with hsetUp
    obtain rfl := Option.some.inj h
    exact .finished hsetUp
  | remoteDescription =>
    simp only [continuation] at h
    split_ifs at h with hpending
    obtain rfl := Option.some.inj h
    exact .remoteDescription hpending
  | remoteDescriptionRejected error =>
    simp only [continuation] at h
    split_ifs at h with hpending
    obtain rfl := Option.some.inj h
    exact .remoteDescriptionRejected error hpending
  | messageSettled =>
    obtain rfl := Option.some.inj h
    exact .messageSettled
  | backgroundTaskExpired =>
    simp only [continuation] at h
    split_ifs at h with htask
    obtain rfl := Option.some.inj h
    exact .backgroundTaskExpired htask
  | backgroundTimeout =>
    simp only [continuation] at h
    split_ifs at h with htask
    obtain rfl := Option.some.inj h
    exact .backgroundTimeout htask

end State
end SignalIOS.Call
