import SignalIOS.Zrtp.PacketCodecs
import SignalIOS.Zrtp.ResponderChecks
import SignalIOS.Zrtp.ZrtpInitiator

/-! What the initiator has sent, and what its master secret has been made of. -/
namespace SignalIOS.Zrtp
open SignalIOS.Lib

/-- The keys are of participants of the protocol that is asked for. -/
def NewKeys.Make (newKeys : NewKeys) (made : KeyAgreementParticipant → Prop) : Prop :=
  ∀ protocol participant, newKeys protocol = .ok participant →
    participant.getProtocol = protocol ∧ made participant

/-- What has been sent, with the response to the last packet. -/
def SentWith (sent : HandshakePacket → Prop) (response : Option HandshakePacket)
    (packet : HandshakePacket) : Prop :=
  sent packet ∨ response = some packet

theorem SentWith.of_none {sent : HandshakePacket → Prop} {packet : HandshakePacket}
    (h : SentWith sent none packet) : sent packet := by
  rcases h with h | h
  · exact h
  · cases h

namespace ZrtpInitiator

/-- The Hello, sent by a participant of the protocol that was chosen for the Hello received. -/
structure HelloMade (made : KeyAgreementParticipant → Prop) (received : HandshakePacket → Prop)
    (s : ZrtpInitiator) (hello foreignHello : HelloPacket)
    (participant : KeyAgreementParticipant) : Prop where
  hashes_valid : s.dhSharedSecretHashes.Valid
  localHello_eq : s.localHello = some hello
  hello_readable : hello.Readable
  foreignHello_stored : Stored received (·.parsedAsHello) s.foreignHello foreignHello
  participant_eq : s.keyAgreementParticipant = some participant
  participant_made : made participant

/-- The DHPart2, and the Commit to it. -/
structure CommitMade (made : KeyAgreementParticipant → Prop) (received : HandshakePacket → Prop)
    (s : ZrtpInitiator) (hello foreignHello : HelloPacket) (participant : KeyAgreementParticipant)
    (dh : DhPacket) (commit : CommitPacket) : Prop
    extends HelloMade made received s hello foreignHello participant where
  localDH_eq : s.localDH = some dh
  dh_readable : dh.Readable false
  publicKeyData_eq : dh.publicKeyData = participant.getPublicKeyData
  commitPacket_eq : s.commitPacket = some commit
  commit_readable : commit.Readable
  agreementSpecId_eq : commit.agreementSpecId = participant.getProtocol.getId

/-- What the initiator has sent when it has its master secret. -/
def SecretSent (sent : HandshakePacket → Prop) (hello : HelloPacket) (dh : DhPacket)
    (commit : CommitPacket) : Prop :=
  ∀ p, sent p → p = hello.embeddedIntoHandshakePacket ∨ p = commit.embeddedIntoHandshakePacket ∨
    p = dh.embeddedIntoHandshakePacket ∨ p.typeId = handshakeTypeConfirm2

variable [CryptoTools]

/-- The master secret, made of the packets in the slots. -/
structure SecretMade (made : KeyAgreementParticipant → Prop) (received : HandshakePacket → Prop)
    (s : ZrtpInitiator) (hello foreignHello : HelloPacket) (participant : KeyAgreementParticipant)
    (dh : DhPacket) (commit : CommitPacket) (foreignDH : DhPacket) (masterSecret : MasterSecret) :
    Prop extends CommitMade made received s hello foreignHello participant dh commit where
  foreignDH_stored : Stored received (·.parsedAsDh1) s.foreignDH foreignDH
  masterSecret_eq : s.masterSecret = some masterSecret
  masterSecret_made : ∃ dhResult,
    participant.calculateKeyAgreementAgainstRemotePublicKey foreignDH.publicKeyData =
      .ok dhResult ∧
    MasterSecret.masterSecretFromDhResult dhResult hello foreignHello commit foreignDH dh =
      .ok masterSecret

/-- What has been made and sent when the next packet is awaited. -/
inductive Progress (made : KeyAgreementParticipant → Prop)
    (received sent : HandshakePacket → Prop) (s : ZrtpInitiator) : Prop
  | expectingHello (h : s.packetExpectation = .expectingHello)
    (hashes_valid : s.dhSharedSecretHashes.Valid) (unsent : ∀ p, ¬ sent p)
  | expectingHelloAck (h : s.packetExpectation = .expectingHelloAck)
    (hello foreignHello : HelloPacket) (participant : KeyAgreementParticipant)
    (helloMade : HelloMade made received s hello foreignHello participant)
    (sent_cases : ∀ p, sent p → p = hello.embeddedIntoHandshakePacket)
  | expectingDH (h : s.packetExpectation = .expectingDH) (hello foreignHello : HelloPacket)
    (participant : KeyAgreementParticipant) (dh : DhPacket) (commit : CommitPacket)
    (commitMade : CommitMade made received s hello foreignHello participant dh commit)
    (sent_cases : ∀ p, sent p → p = hello.embeddedIntoHandshakePacket ∨
      p = commit.embeddedIntoHandshakePacket)
  | secret (h : s.packetExpectation = .expectingConfirm ∨
      s.packetExpectation = .expectingConfirmAck ∨ s.packetExpectation = .expectingNothing)
    (hello foreignHello : HelloPacket) (participant : KeyAgreementParticipant) (dh : DhPacket)
    (commit : CommitPacket) (foreignDH : DhPacket) (masterSecret : MasterSecret)
    (secretMade : SecretMade made received s hello foreignHello participant dh commit foreignDH
      masterSecret)
    (sent_cases : SecretSent sent hello dh commit)

variable {made : KeyAgreementParticipant → Prop}
  {received received' sent sent' : HandshakePacket → Prop} {s : ZrtpInitiator}
  {environment : Environment} {newKeys : NewKeys} {packet : HandshakePacket}
  {hello foreignHello : HelloPacket} {participant : KeyAgreementParticipant} {dh : DhPacket}
  {commit : CommitPacket} {foreignDH : DhPacket} {masterSecret : MasterSecret}

omit [CryptoTools] in
theorem made_of_retrieve (hnewKeys : newKeys.Make made)
    (h : s.retrieveKeyAgreementParticpant newKeys = .ok participant) : made participant := by
  obtain ⟨-, -, h⟩ := Throws.bind_eq_ok.mp h
  obtain ⟨protocol, -, h⟩ := Throws.bind_eq_ok.mp h
  exact (hnewKeys protocol participant h).2

theorem handleHello_progress (hnewKeys : newKeys.Make made)
    (hexpecting : s.packetExpectation = .expectingHello) (hhashes : s.dhSharedSecretHashes.Valid)
    (hunsent : ∀ p, ¬ sent p) (hpacket : received packet) :
    (handleHello environment newKeys packet).Ensures s
      (fun response t => Progress made received (SentWith sent response) t)
      fun _ t => Progress made received sent t := by
  simp only [handleHello, Method.ensures_bind, Method.ensures_lift, Method.ensures_modify,
    Method.ensures_get, Method.ensures_pure]
  refine ⟨fun foreignHello hparsed => ?_, fun _ _ => .expectingHello hexpecting hhashes hunsent⟩
  refine ⟨fun participant hparticipant => ?_,
    fun _ _ => .expectingHello hexpecting hhashes hunsent⟩
  refine ⟨fun localHello hlocalHello => ?_, fun _ _ => .expectingHello hexpecting hhashes hunsent⟩
  obtain ⟨_, -, hhello⟩ := Throws.bind_eq_ok.mp hlocalHello
  refine .expectingHelloAck rfl localHello foreignHello participant
    { hashes_valid := hhashes
      localHello_eq := rfl
      hello_readable := HelloPacket.readable_of_helloPacketWithVersion hhello
      foreignHello_stored := ⟨rfl, packet, hpacket, hparsed⟩
      participant_eq := rfl
      participant_made := made_of_retrieve hnewKeys hparticipant } ?_
  rintro p (hsent | hresponse)
  · exact absurd hsent (hunsent p)
  · exact (Option.some.inj hresponse).symm

theorem handleHelloAck_progress (hexpecting : s.packetExpectation = .expectingHelloAck)
    (hhello : HelloMade made received s hello foreignHello participant)
    (hsent : ∀ p, sent p → p = hello.embeddedIntoHandshakePacket) :
    (handleHelloAck newKeys packet).Ensures s
      (fun response t => Progress made received (SentWith sent response) t)
      fun _ t => Progress made received sent t := by
  simp only [handleHelloAck, Method.ensures_bind, Method.ensures_lift, Method.ensures_modify,
    Method.ensures_get, Method.ensures_pure]
  have hunchanged : Progress made received sent s :=
    .expectingHelloAck hexpecting hello foreignHello participant hhello hsent
  refine ⟨fun _ _ => ?_, fun _ _ => hunchanged⟩
  refine ⟨fun _ _ => ?_, fun _ _ => hunchanged⟩
  refine ⟨fun participant' hparticipant => ?_, fun _ _ => hunchanged⟩
  obtain rfl : participant = participant' :=
    Option.some.inj (hhello.participant_eq.symm.trans (owsRequireNotNil_eq_ok.mp hparticipant))
  refine ⟨fun dh hdh => ?_, fun _ _ => hunchanged⟩
  -- an exception leaves the DHPart2 behind, which has not been sent
  have hwaiting : Progress made received sent { s with localDH := some dh } :=
    .expectingHelloAck hexpecting hello foreignHello participant { hhello with } hsent
  obtain ⟨hdhReadable, hpublicKeyData⟩ :=
    DhPacket.readable_of_dhPacketWithHashChainH0 hhello.hashes_valid hdh
  refine ⟨fun foreignHello' _ => ?_, fun _ _ => hwaiting⟩
  refine ⟨fun commit hcommit => ?_, fun _ _ => hwaiting⟩
  obtain ⟨hcommitReadable, hagreementSpecId⟩ :=
    CommitPacket.readable_of_commitPacketWithHashChainH2 hcommit
  refine .expectingDH rfl hello foreignHello participant dh commit
    { hashes_valid := hhello.hashes_valid
      localHello_eq := hhello.localHello_eq
      hello_readable := hhello.hello_readable
      foreignHello_stored := hhello.foreignHello_stored
      participant_eq := hhello.participant_eq
      participant_made := hhello.participant_made
      localDH_eq := rfl
      dh_readable := hdhReadable
      publicKeyData_eq := hpublicKeyData
      commitPacket_eq := rfl
      commit_readable := hcommitReadable
      agreementSpecId_eq := hagreementSpecId } ?_
  rintro p (hp | hresponse)
  · exact .inl (hsent p hp)
  · exact .inr (Option.some.inj hresponse).symm

theorem handleDH_progress (hexpecting : s.packetExpectation = .expectingDH)
    (hcommit : CommitMade made received s hello foreignHello participant dh commit)
    (hsent : ∀ p, sent p → p = hello.embeddedIntoHandshakePacket ∨
      p = commit.embeddedIntoHandshakePacket) (hpacket : received packet) :
    (handleDH packet).Ensures s
      (fun response t => Progress made received (SentWith sent response) t)
      fun _ t => Progress made received sent t := by
  have hwaiting (foreignDH : Option DhPacket) :
      Progress made received sent { s with foreignDH := foreignDH } :=
    .expectingDH hexpecting hello foreignHello participant dh commit { hcommit with } hsent
  simp only [handleDH, Method.ensures_bind, Method.ensures_lift, Method.ensures_modify,
    Method.ensures_get, Method.ensures_pure]
  refine ⟨fun foreignDH hparsed => ?_, fun _ _ => hwaiting s.foreignDH⟩
  refine ⟨fun _ _ => ?_, fun _ _ => hwaiting _⟩
  refine ⟨fun participant' hparticipant => ?_, fun _ _ => hwaiting _⟩
  refine ⟨fun dhResult hdhResult => ?_, fun _ _ => hwaiting _⟩
  refine ⟨fun hello' hhello => ?_, fun _ _ => hwaiting _⟩
  refine ⟨fun foreignHello' hforeignHello => ?_, fun _ _ => hwaiting _⟩
  refine ⟨fun commit' hcommitPacket => ?_, fun _ _ => hwaiting _⟩
  refine ⟨fun dh' hdh => ?_, fun _ _ => hwaiting _⟩
  refine ⟨fun masterSecret hmasterSecret => ?_, fun _ _ => hwaiting _⟩
  rw [owsRequireNotNil_eq_ok] at hparticipant hhello hforeignHello hcommitPacket hdh
  obtain rfl := Option.some.inj (hcommit.participant_eq.symm.trans hparticipant)
  obtain rfl := Option.some.inj (hcommit.localHello_eq.symm.trans hhello)
  obtain rfl := Option.some.inj (hcommit.foreignHello_stored.slot_eq.symm.trans hforeignHello)
  obtain rfl := Option.some.inj (hcommit.commitPacket_eq.symm.trans hcommitPacket)
  obtain rfl := Option.some.inj (hcommit.localDH_eq.symm.trans hdh)
  refine .secret (.inl rfl) hello foreignHello participant dh commit foreignDH masterSecret
    { toCommitMade := { hcommit with }
      foreignDH_stored := ⟨rfl, packet, hpacket, hparsed⟩
      masterSecret_eq := rfl
      masterSecret_made := ⟨dhResult, hdhResult, hmasterSecret⟩ } ?_
  rintro p (hp | hresponse)
  · exact (hsent p hp).imp_right .inl
  · exact .inr (.inr (.inl (Option.some.inj hresponse).symm))

theorem handleConfirmOne_progress (hexpecting : s.packetExpectation = .expectingConfirm)
    (hsecret : SecretMade made received s hello foreignHello participant dh commit foreignDH
      masterSecret) (hsent : SecretSent sent hello dh commit) :
    (handleConfirmOne packet).Ensures s
      (fun response t => Progress made received (SentWith sent response) t)
      fun _ t => Progress made received sent t := by
  simp only [handleConfirmOne, Method.ensures_bind, Method.ensures_lift, Method.ensures_modify,
    Method.ensures_get, Method.ensures_pure]
  have hunchanged : Progress made received sent s := .secret (.inl hexpecting) hello foreignHello
    participant dh commit foreignDH masterSecret hsecret hsent
  refine ⟨fun masterSecret' _ => ?_, fun _ _ => hunchanged⟩
  refine ⟨fun confirm _ => ?_, fun _ _ => hunchanged⟩
  refine ⟨fun _ _ => ?_, fun _ _ => hunchanged⟩
  have hsecret' : SecretMade made received { s with packetExpectation := .expectingConfirmAck }
      hello foreignHello participant dh commit foreignDH masterSecret := { hsecret with }
  refine ⟨fun confirm2 hconfirm2 => ?_, fun _ _ => .secret (.inr (.inl rfl)) hello foreignHello
    participant dh commit foreignDH masterSecret hsecret' hsent⟩
  refine .secret (.inr (.inl rfl)) hello foreignHello participant dh commit foreignDH masterSecret
    hsecret' ?_
  rintro p (hp | hresponse)
  · exact hsent p hp
  · obtain rfl := Option.some.inj hresponse
    exact .inr (.inr (.inr (ConfirmPacket.typeId_of_confirmPacketWithHashChainH0 hconfirm2)))

theorem handleConfirmAck_progress (hexpecting : s.packetExpectation = .expectingConfirmAck)
    (hsecret : SecretMade made received s hello foreignHello participant dh commit foreignDH
      masterSecret) (hsent : SecretSent sent hello dh commit) :
    (handleConfirmAck packet).Ensures s
      (fun response t => Progress made received (SentWith sent response) t)
      fun _ t => Progress made received sent t := by
  simp only [handleConfirmAck, Method.ensures_bind, Method.ensures_lift, Method.ensures_modify,
    Method.ensures_pure]
  constructor
  · intro _ _
    exact .secret (.inr (.inr rfl)) hello foreignHello participant dh commit foreignDH masterSecret
      { hsecret with } fun p hp => hsent p (SentWith.of_none hp)
  · intro _ _
    exact .secret (.inr (.inl hexpecting)) hello foreignHello participant dh commit foreignDH
      masterSecret hsecret hsent

theorem handleExpected_progress (hnewKeys : newKeys.Make made) (h : Progress made received sent s)
    (hpacket : received packet) :
    (handleExpected environment newKeys packet).Ensures s
      (fun response t => Progress made received (SentWith sent response) t)
      fun _ t => Progress made received sent t := by
  rw [handleExpected, Method.ensures_bind, Method.ensures_get]
  cases h with
  | expectingHello h hhashes hunsent =>
    simpa only [h] using handleHello_progress hnewKeys h hhashes hunsent hpacket
  | expectingHelloAck h hello foreignHello participant hmade hsent =>
    simpa only [h] using handleHelloAck_progress h hmade hsent
  | expectingDH h hello foreignHello participant dh commit hmade hsent =>
    simpa only [h] using handleDH_progress h hmade hsent hpacket
  | secret h hello foreignHello participant dh commit foreignDH masterSecret hmade hsent =>
    rcases h with h | h | h
    · simpa only [h] using handleConfirmOne_progress h hmade hsent
    · simpa only [h] using handleConfirmAck_progress h hmade hsent
    · simp only [h, Method.ensures_pure]
      exact .secret (.inr (.inr h)) hello foreignHello participant dh commit foreignDH masterSecret
        hmade fun p hp => hsent p (SentWith.of_none hp)

theorem Progress.withCallController (h : Progress made received sent s)
    (callController : List CallControllerMessage) :
    Progress made received sent { s with callController := callController } := by
  cases h with
  | expectingHello h hhashes hunsent => exact .expectingHello h hhashes hunsent
  | expectingHelloAck h hello foreignHello participant hmade hsent =>
    exact .expectingHelloAck h hello foreignHello participant { hmade with } hsent
  | expectingDH h hello foreignHello participant dh commit hmade hsent =>
    exact .expectingDH h hello foreignHello participant dh commit { hmade with } hsent
  | secret h hello foreignHello participant dh commit foreignDH masterSecret hmade hsent =>
    exact .secret h hello foreignHello participant dh commit foreignDH masterSecret
      { hmade with } hsent

/-- More may have been received, and less sent. -/
theorem Progress.mono (h : Progress made received sent s) (hr : ∀ p, received p → received' p)
    (hs : ∀ p, sent' p → sent p) : Progress made received' sent' s := by
  cases h with
  | expectingHello h hhashes hunsent =>
    exact .expectingHello h hhashes fun p hp => hunsent p (hs p hp)
  | expectingHelloAck h hello foreignHello participant hmade hsent =>
    exact .expectingHelloAck h hello foreignHello participant
      { hmade with foreignHello_stored := hmade.foreignHello_stored.mono hr }
      fun p hp => hsent p (hs p hp)
  | expectingDH h hello foreignHello participant dh commit hmade hsent =>
    exact .expectingDH h hello foreignHello participant dh commit
      { hmade with foreignHello_stored := hmade.foreignHello_stored.mono hr }
      fun p hp => hsent p (hs p hp)
  | secret h hello foreignHello participant dh commit foreignDH masterSecret hmade hsent =>
    exact .secret h hello foreignHello participant dh commit foreignDH masterSecret
      { hmade with
        foreignHello_stored := hmade.foreignHello_stored.mono hr
        foreignDH_stored := hmade.foreignDH_stored.mono hr }
      fun p hp => hsent p (hs p hp)

theorem handlePacket_progress (hnewKeys : newKeys.Make made) (h : Progress made received sent s)
    (hpacket : received packet) :
    (handlePacket environment newKeys packet).Ensures s
      (fun response t => Progress made received (SentWith sent response) t)
      fun _ t => Progress made received sent t := by
  rw [handlePacket, Method.ensures_tryCatch]
  refine (handleExpected_progress hnewKeys h hpacket).mono (fun _ _ h => h) fun exception t h => ?_
  have hunanswered : Progress made received (SentWith sent none) t :=
    h.mono (fun _ => id) fun _ => SentWith.of_none
  cases exception with
  | securityFailure => exact hunanswered.withCallController _
  | operationFailed description => exact hunanswered
  | badArgument => exact h
  | badState => exact h
  | nsRangeException => exact h

end ZrtpInitiator
end SignalIOS.Zrtp
