import SignalIOS.Zrtp.InitiatorChecks
import SignalIOS.Zrtp.ZrtpRole

/-! Authentication: whatever packets arrive, a role that has finished the handshake has verified
the packets it has stored, each by a preimage that arrived later. -/
namespace SignalIOS.Zrtp
open SignalIOS.Lib SignalIOS.Rtp

/-- The packet has arrived, with whatever keys the role made for it. -/
def Received (tr : History ZrtpRole Arrival) (packet : HandshakePacket) : Prop :=
  ∃ newKeys, .handshakePacket newKeys packet ∈ tr.map Prod.fst

def ReceivedRtp (tr : History ZrtpRole Arrival) (packet : RtpPacket) : Prop :=
  ∃ newKeys, .error newKeys (some packet) ∈ tr.map Prod.fst

namespace ZrtpRole
variable [CryptoTools]

def Verified (environment : Environment) (received : HandshakePacket → Prop)
    (receivedRtp : RtpPacket → Prop) : ZrtpRole → Prop
  | initiator role => role.Verified environment received receivedRtp
  | responder role => role.Verified received

def Authenticated (environment : Environment) (received : HandshakePacket → Prop)
    (receivedRtp : RtpPacket → Prop) : ZrtpRole → Prop
  | initiator role => ∃ hello dh masterSecret confirm,
    role.Authenticated received hello dh masterSecret confirm ∧
      ZrtpInitiator.Acknowledged environment received receivedRtp masterSecret
  | responder role => ∃ hello commit dh masterSecret confirm,
    role.Authenticated received hello commit dh masterSecret confirm

variable {environment : Environment} {received received' : HandshakePacket → Prop}
  {receivedRtp receivedRtp' : RtpPacket → Prop} {role : ZrtpRole} {newKeys : NewKeys}

theorem Verified.mono (h : role.Verified environment received receivedRtp)
    (hr : ∀ p, received p → received' p) (hrtp : ∀ p, receivedRtp p → receivedRtp' p) :
    role.Verified environment received' receivedRtp' := by
  cases role with
  | initiator role => exact ZrtpInitiator.Verified.mono h hr hrtp
  | responder role => exact ZrtpResponder.Verified.mono h hr

theorem Verified.authenticated (h : role.Verified environment received receivedRtp)
    (hfinished : role.hasHandshakeFinishedSuccessfully = true) :
    role.Authenticated environment received receivedRtp := by
  cases role with
  | initiator role =>
    have hnothing : role.packetExpectation = .expectingNothing := of_decide_eq_true hfinished
    cases h with
    | finished _ hello dh masterSecret confirm authenticated acknowledged =>
      exact ⟨hello, dh, masterSecret, confirm, authenticated, acknowledged⟩
    | _ h => exact absurd (h.symm.trans hnothing) nofun
  | responder role =>
    have hnothing : role.packetExpectation = .expectingNothing := of_decide_eq_true hfinished
    cases h with
    | finished _ hello commit dh masterSecret confirm authenticated =>
      exact ⟨hello, commit, dh, masterSecret, confirm, authenticated⟩
    | _ h => exact absurd (h.symm.trans hnothing) nofun

theorem start_verified {random : SecureRandomData} {isInitiator : Bool}
    (h : zrtpRole environment random isInitiator = .ok role) :
    role.start.Verified environment received receivedRtp := by
  cases isInitiator with
  | true =>
    obtain ⟨s, hs, hrole⟩ := Throws.bind_eq_ok.mp h
    obtain ⟨hashChain, -, hs⟩ := Throws.bind_eq_ok.mp hs
    rw [← Except.ok.inj hrole]
    exact .expectingHello (congrArg ZrtpInitiator.packetExpectation (Except.ok.inj hs)).symm
  | false =>
    obtain ⟨s, hs, hrole⟩ := Throws.bind_eq_ok.mp h
    obtain ⟨hashChain, -, hs⟩ := Throws.bind_eq_ok.mp hs
    obtain ⟨localHello, -, hs⟩ := Throws.bind_eq_ok.mp hs
    rw [← Except.ok.inj hrole]
    exact .expectingHello (congrArg ZrtpResponder.packetExpectation (Except.ok.inj hs)).symm

theorem handlePacket_verified {packet : HandshakePacket}
    (h : role.Verified environment received receivedRtp) (hpacket : received packet) :
    (role.handlePacket environment newKeys packet).2.Verified environment received receivedRtp := by
  cases role with
  | initiator role =>
    exact (ZrtpInitiator.handlePacket_leaves (ZrtpInitiator.handleExpected_leaves h hpacket)).run
  | responder role => exact (ZrtpResponder.handlePacket_leaves h hpacket).run

/-- The Conf2Ack that the error handler makes is handled only where audio implies one. -/
theorem handleError_verified {relatedInfo : Option RtpPacket}
    (h : role.Verified environment received receivedRtp)
    (hrtp : ∀ p, relatedInfo = some p → receivedRtp p) :
    (role.handleError environment newKeys relatedInfo).Verified environment received
      receivedRtp := by
  unfold handleError
  split
  · rename_i confirmAck himplying _
    cases role with
    | initiator role =>
      obtain ⟨hexpecting, masterSecret, p, hmasterSecret, hp, hauthenticates⟩ :=
        ZrtpInitiator.authenticates_of_implyingConf2Ack himplying
      refine (ZrtpInitiator.handlePacket_leaves ?_).run
      refine ZrtpInitiator.handleExpected_leaves_of_acknowledged h hexpecting fun ms hms => ?_
      obtain rfl : masterSecret = ms := Option.some.inj (hmasterSecret.symm.trans hms)
      exact .inr ⟨p, hrtp p hp, hauthenticates⟩
    | responder role => cases himplying
  · exact h

theorem run_verified {random : SecureRandomData} {isInitiator : Bool}
    (hrole : zrtpRole environment random isInitiator = .ok role) {tr : History ZrtpRole Arrival}
    (h : (machine environment role).Run tr) : ((machine environment role).last tr).Verified
      environment (Received tr) (ReceivedRtp tr) := by
  refine h.invariant (P := fun tr => ((machine environment role).last tr).Verified
    environment (Received tr) (ReceivedRtp tr)) (start_verified hrole) fun tr e s _ hP hstep => ?_
  have hearlier : ((machine environment role).last tr).Verified environment
      (Received ((e, s) :: tr)) (ReceivedRtp ((e, s) :: tr)) := hP.mono
    (fun _ ⟨newKeys, hmem⟩ => ⟨newKeys, List.mem_cons_of_mem _ hmem⟩)
    fun _ ⟨newKeys, hmem⟩ => ⟨newKeys, List.mem_cons_of_mem _ hmem⟩
  cases e with
  | handshakePacket newKeys packet =>
    obtain rfl := Option.some.inj hstep
    exact handlePacket_verified hearlier ⟨newKeys, List.mem_cons_self⟩
  | error newKeys relatedInfo =>
    obtain rfl := Option.some.inj hstep
    refine handleError_verified hearlier fun p hp => ⟨newKeys, ?_⟩
    rw [hp]
    exact List.mem_cons_self

theorem authenticated_of_finished {random : SecureRandomData} {isInitiator : Bool}
    (hrole : zrtpRole environment random isInitiator = .ok role) {tr : History ZrtpRole Arrival}
    (h : (machine environment role).Run tr)
    (hfinished : ((machine environment role).last tr).hasHandshakeFinishedSuccessfully = true) :
    ((machine environment role).last tr).Authenticated environment (Received tr)
      (ReceivedRtp tr) :=
  (run_verified hrole h).authenticated hfinished

end ZrtpRole

/-! A handshake between the two roles, with primitives that only have the right lengths. -/

section Sample

def padded (length : ℕ) (data : NSData) : NSData :=
  List.take length (data ++ List.replicate length 0)

local instance sampleCryptoTools : CryptoTools where
  sha256 := padded 32
  hmacSha256 key data := padded 32 (key ++ data)
  hmacSha1 key data := padded 20 (key ++ data)
  aesCfbEncrypt _ _ data := data
  aesCfbDecrypt _ _ data := data
  aesCtrEncrypt _ _ data := data
  aesCtrDecrypt _ _ data := data

def sampleEnvironment : Environment where
  keyAgreementProtocolsInDescendingPriority := [⟨commitDefaultAgreeSpecId⟩]
  zrtpClientId := List.replicate clientIdLength 0
  zrtpVersionId := List.replicate versionIdLength 0
  testingAndLegacyOptions := []

def sampleRandom (byte : UInt8) : SecureRandomData where
  confirmIv := List.replicate 16 byte
  dhSharedSecretHashes := ⟨List.replicate 8 byte, List.replicate 8 byte, List.replicate 8 byte,
    List.replicate 8 byte⟩
  hashChainSeed := List.replicate 32 byte

def sampleKeys : NewKeys := fun protocol => .ok ⟨protocol, [1], fun _ => .ok [2]⟩

/-- What arrives for `role`, and for `peer`, when each answers the other, from a packet for `role`
on. -/
def exchange : ℕ → ZrtpRole → ZrtpRole → HandshakePacket → List Arrival × List Arrival
  | 0, _, _, _ => ([], [])
  | n + 1, role, peer, packet =>
    match role.handlePacket sampleEnvironment sampleKeys packet with
    | (.ok (some response), role) =>
      let (forPeer, forRole) := exchange n peer role response
      (.handshakePacket sampleKeys packet :: forRole, forPeer)
    | _ => ([.handshakePacket sampleKeys packet], [])

def sampleRole (isInitiator : Bool) : Throws ZrtpRole :=
  ZrtpRole.zrtpRole sampleEnvironment (sampleRandom (if isInitiator then 1 else 2)) isInitiator

/-- What arrives in the handshake that starts with the Hello of the responder. -/
def sampleArrivals (isInitiator : Bool) : List Arrival :=
  match sampleRole true, sampleRole false with
  | .ok initiator, .ok (.responder responder) =>
    let (forInitiator, forResponder) := exchange 9 initiator (.responder responder)
      responder.localHello.embeddedIntoHandshakePacket
    if isInitiator then forInitiator else forResponder
  | _, _ => []

/-- The role has finished after what arrives for it, and the packets it has are authenticated. -/
def SampleAuthenticated (isInitiator : Bool) : Prop :=
  ∃ role tr, sampleRole isInitiator = .ok role ∧
    (ZrtpRole.machine sampleEnvironment role).exec (sampleArrivals isInitiator) = some tr ∧
    ((ZrtpRole.machine sampleEnvironment role).last tr).Authenticated sampleEnvironment
      (Received tr) (ReceivedRtp tr)

theorem authenticated_of_finished_sample :
    SampleAuthenticated true ∧ SampleAuthenticated false := by
  have hfinished (isInitiator : Bool) : ((sampleRole isInitiator).toOption.bind fun role =>
      ((ZrtpRole.machine sampleEnvironment role).exec (sampleArrivals isInitiator)).map fun tr =>
        ((ZrtpRole.machine sampleEnvironment role).last tr).hasHandshakeFinishedSuccessfully) =
      some true := by
    cases isInitiator <;> decide +kernel
  have hsample (isInitiator : Bool) : SampleAuthenticated isInitiator := by
    obtain ⟨role, hrole, h⟩ := Option.bind_eq_some_iff.mp (hfinished isInitiator)
    obtain ⟨tr, htr, h⟩ := Option.map_eq_some_iff.mp h
    have hrole := Throws.eq_ok_of_toOption hrole
    exact ⟨role, tr, hrole, htr,
      ZrtpRole.authenticated_of_finished hrole (Machine.run_of_exec htr) h⟩
  exact ⟨hsample true, hsample false⟩

end Sample
end SignalIOS.Zrtp
