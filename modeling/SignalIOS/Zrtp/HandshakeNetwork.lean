import SignalIOS.Zrtp.ZrtpManager

/-! The two managers of a handshake, and the network between them. It may lose, repeat, delay and
reorder what they send, but not forge or alter it. -/
namespace SignalIOS.Zrtp
open SignalIOS.Lib SignalIOS.Rtp

/-- What happens to a manager. -/
inductive ManagerEvent
  | handshakePacket (newKeys : NewKeys) (packet : HandshakePacket)
  | error (newKeys : NewKeys) (exception : Exception) (relatedInfo : Option RtpPacket)
    (causedTermination : Bool)
  | scheduledRun
  | terminate

/-- Whether the event can happen. A packet arrives once the peer has sent it, and then at any
time. -/
def ManagerEvent.canHappen (sentByPeer : List HandshakePacket) (manager : ZrtpManager) :
    ManagerEvent → Bool
  | handshakePacket _ packet => !manager.cancelTokenSourceCancelled && sentByPeer.contains packet
  | error _ _ _ _ => !manager.cancelTokenSourceCancelled
  | scheduledRun => manager.currentRetransmit.isSome
  | terminate => true

/-- A handshake, with the manager of either role. -/
structure Handshake where
  initiator : ZrtpManager
  responder : ZrtpManager

inductive HandshakeEvent
  | initiator (event : ManagerEvent)
  | responder (event : ManagerEvent)

variable [CryptoTools]

/-- What a manager does about the event. -/
def ManagerEvent.handle (environment : Environment) : ManagerEvent → ManagerMethod Unit
  | handshakePacket newKeys packet =>
    ZrtpManager.handleHandshakePacket environment newKeys packet
  | error newKeys exception relatedInfo causedTermination =>
    ZrtpManager.handleError environment newKeys exception relatedInfo causedTermination
  | scheduledRun => ZrtpManager.runScheduled
  | terminate => ZrtpManager.terminate

namespace Handshake

/-- Both managers have been asked to perform the handshake. -/
def start (initiator : ZrtpInitiator) (responder : ZrtpResponder) : Handshake where
  initiator := (ZrtpManager.asyncPerformHandshake.run.run { zrtpRole := .initiator initiator }).2
  responder := (ZrtpManager.asyncPerformHandshake.run.run { zrtpRole := .responder responder }).2

/-- The runs of a handshake. An exception that a manager does not catch ends the application, here
it goes on with what had been assigned. -/
def machine (initiatorEnvironment responderEnvironment : Environment) (initiator : ZrtpInitiator)
    (responder : ZrtpResponder) : Machine Handshake HandshakeEvent where
  init := start initiator responder
  step s
    | .initiator event =>
      if event.canHappen s.responder.handshakeSocket s.initiator then
        some { s with initiator := ((event.handle initiatorEnvironment).run.run s.initiator).2 }
      else none
    | .responder event =>
      if event.canHappen s.initiator.handshakeSocket s.responder then
        some { s with responder := ((event.handle responderEnvironment).run.run s.responder).2 }
      else none

end Handshake
end SignalIOS.Zrtp
