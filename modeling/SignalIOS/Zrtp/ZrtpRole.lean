import SignalIOS.Lib.Runs
import SignalIOS.Zrtp.ZrtpInitiator

/-! The roles of the handshake, and what arrives for them. -/
namespace SignalIOS.Zrtp
open SignalIOS.Lib SignalIOS.Rtp

inductive ZrtpRole
  | initiator (role : ZrtpInitiator)
  | responder (role : ZrtpResponder)

/-- What arrives for a role: a packet of the handshake, or what the socket found to be no such
packet, which may be an RTP packet. -/
inductive Arrival
  | handshakePacket (newKeys : NewKeys) (packet : HandshakePacket)
  | error (newKeys : NewKeys) (relatedInfo : Option RtpPacket)

namespace ZrtpRole

def hasHandshakeFinishedSuccessfully : ZrtpRole → Bool
  | initiator role => role.hasHandshakeFinishedSuccessfully
  | responder role => role.hasHandshakeFinishedSuccessfully

variable [CryptoTools]

/-- The role that `asyncPerformHandshakeOver` chooses. -/
def zrtpRole (environment : Environment) (random : SecureRandomData) (isInitiator : Bool) :
    Throws ZrtpRole :=
  if isInitiator then return initiator (← ZrtpInitiator.zrtpInitiator environment random)
  else return responder (← ZrtpResponder.zrtpResponder environment random)

/-- The response or the exception, and the role after either. -/
def handlePacket (environment : Environment) (newKeys : NewKeys) (packet : HandshakePacket) :
    ZrtpRole → Except Exception (Option HandshakePacket) × ZrtpRole
  | initiator role =>
    ((ZrtpInitiator.handlePacket environment newKeys packet).run.run role).map id initiator
  | responder role =>
    ((ZrtpResponder.handlePacket environment newKeys packet).run.run role).map id responder

def isAuthenticatedAudioDataImplyingConf2Ack (environment : Environment)
    (relatedInfo : Option RtpPacket) : ZrtpRole → Throws Bool
  | initiator role => role.isAuthenticatedAudioDataImplyingConf2Ack environment relatedInfo
  | responder role => return role.isAuthenticatedAudioDataImplyingConf2Ack

/-- What the error handler of `ZrtpManager` does: a Conf2Ack may have been lost. -/
def handleError (environment : Environment) (newKeys : NewKeys) (relatedInfo : Option RtpPacket)
    (role : ZrtpRole) : ZrtpRole :=
  match role.isAuthenticatedAudioDataImplyingConf2Ack environment relatedInfo,
    ConfirmAckPacket.confirmAckPacket with
  | .ok true, .ok confirmAck =>
    (role.handlePacket environment newKeys confirmAck.embeddedIntoHandshakePacket).2
  | _, _ => role

/-- The role after it has been asked for its first packet. -/
def start : ZrtpRole → ZrtpRole
  | initiator role => initiator (ZrtpInitiator.initialPacket.run.run role).2
  | responder role => responder (ZrtpResponder.initialPacket.run.run role).2

/-- The runs of a role. `ZrtpManager` stops a role once it is done, here it goes on. -/
def machine (environment : Environment) (role : ZrtpRole) : Machine ZrtpRole Arrival where
  init := role.start
  step role
    | .handshakePacket newKeys packet => some (role.handlePacket environment newKeys packet).2
    | .error newKeys relatedInfo => some (role.handleError environment newKeys relatedInfo)

end ZrtpRole
end SignalIOS.Zrtp
