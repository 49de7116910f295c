import SignalIOS.Zrtp.InitiatorProgress

/-! What the responder has sent, and what its master secret has been made of. -/
namespace SignalIOS.Zrtp
open SignalIOS.Lib

namespace ZrtpResponder

/-- What the responder has from the start. -/
structure Started (s : ZrtpResponder) : Prop where
  hashes_valid : s.dhSharedSecretHashes.Valid
  hello_readable : s.localHello.Readable

/-- The DHPart1, of a participant of the protocol of the Commit. -/
structure DHMade (made : KeyAgreementParticipant → Prop) (received : HandshakePacket → Prop)
    (s : ZrtpResponder) (foreignHello : HelloPacket) (commit : CommitPacket)
    (participant : KeyAgreementParticipant) (dh : DhPacket) : Prop extends Started s where
  foreignHello_stored : Stored received (·.parsedAsHello) s.foreignHello foreignHello
  foreignCommit_stored : Stored received (·.parsedAsCommitPacket) s.foreignCommit commit
  participant_eq : s.keyAgreementParticipant = some participant
  participant_made : made participant
  agreementSpecId_eq : commit.agreementSpecId = participant.getProtocol.getId
  localDH_eq : s.localDH = some dh
  dh_readable : dh.Readable true
  publicKeyData_eq : dh.publicKeyData = participant.getPublicKeyData

/-- What the responder has sent when it has its master secret. -/
def SecretSent (sent : HandshakePacket → Prop) (hello : HelloPacket) (dh : DhPacket) : Prop :=
  ∀ p, sent p → p = hello.embeddedIntoHandshakePacket ∨ p = dh.embeddedIntoHandshakePacket ∨
    p.typeId = handshakeTypeHelloAck ∨ p.typeId = handshakeTypeConfirm1 ∨
    p.typeId = handshakeTypeConfirmAck

variable [CryptoTools]

/-- The master secret, made of the packets in the slots. -/
structure SecretMade (made : KeyAgreementParticipant → Prop) (received : HandshakePacket → Prop)
    (s : ZrtpResponder) (foreignHello : HelloPacket) (commit : CommitPacket)
    (participant : KeyAgreementParticipant) (dh foreignDH : DhPacket)
    (masterSecret : MasterSecret) : Prop
    extends DHMade made received s foreignHello commit participant dh where
  foreignDH_stored : Stored received (·.parsedAsDh2) s.foreignDH foreignDH
  masterSecret_eq : s.masterSecret = some masterSecret
  masterSecret_made : ∃ dhResult,
    participant.calculateKeyAgreementAgainstRemotePublicKey foreignDH.publicKeyData =
      .ok dhResult ∧
    MasterSecret.masterSecretFromDhResult dhResult foreignHello s.localHello commit dh foreignDH =
      .ok masterSecret

/-- What has been made and sent when the next packet is awaited. -/
inductive Progress (made : KeyAgreementParticipant → Prop)
    (received sent : HandshakePacket → Prop) (s : ZrtpResponder) : Prop
  | expectingHello (h : s.packetExpectation = .expectingHello) (started : Started s)
    (sent_cases : ∀ p, sent p → p = s.localHello.embeddedIntoHandshakePacket)
  | expectingCommit (h : s.packetExpectation = .expectingCommit) (started : Started s)
    (foreignHello : HelloPacket)
    (foreignHello_stored : Stored received (·.parsedAsHello) s.foreignHello foreignHello)
    (sent_cases : ∀ p, sent p → p = s.localHello.embeddedIntoHandshakePacket ∨
      p.typeId = handshakeTypeHelloAck)
  | expectingDH (h : s.packetExpectation = .expectingDH) (foreignHello : HelloPacket)
    (commit : CommitPacket) (participant : KeyAgreementParticipant) (dh : DhPacket)
    (dhMade : DHMade made received s foreignHello commit participant dh)
    (sent_cases : ∀ p, sent p → p = s.localHello.embeddedIntoHandshakePacket ∨
      p = dh.embeddedIntoHandshakePacket ∨ p.typeId = handshakeTypeHelloAck)
  | secret (h : s.packetExpectation = .expectingConfirm ∨
      s.packetExpectation = .expectingNothing) (foreignHello : HelloPacket) (commit : CommitPacket)
    (participant : KeyAgreementParticipant) (dh foreignDH : DhPacket) (masterSecret : MasterSecret)
    (secretMade : SecretMade made received s foreignHello commit participant dh foreignDH
      masterSecret)
    (sent_cases : SecretSent sent s.localHello dh)

variable {made : KeyAgreementParticipant → Prop}
  {received received' sent sent' : HandshakePacket → Prop} {s : ZrtpResponder}
  {environment : Environment} {newKeys : NewKeys} {packet : HandshakePacket}
  {foreignHello : HelloPacket} {commit : CommitPacket} {participant : KeyAgreementParticipant}
  {dh foreignDH : DhPacket} {masterSecret : MasterSecret}

omit [CryptoTools] in
/-- The protocol that has been found is that of the Commit. -/
theorem made_of_retrieve (hnewKeys : newKeys.Make made) (hcommit : s.foreignCommit = some commit)
    (h : s.retrieveKeyAgreementParticipant newKeys = .ok participant) :
    made participant ∧ commit.agreementSpecId = participant.getProtocol.getId := by
  obtain ⟨-, -, h⟩ := Throws.bind_eq_ok.mp h
  obtain ⟨protocol, hprotocol, h⟩ := Throws.bind_eq_ok.mp h
  obtain ⟨rfl, hmade⟩ := hnewKeys protocol participant h
  have hfound := List.find?_some (owsRequireNotNil_eq_ok.mp hprotocol)
  rw [hcommit] at hfound
  exact ⟨hmade, Option.some.inj (of_decide_eq_true hfound)⟩

theorem handleHello_progress (hexpecting : s.packetExpectation = .expectingHello)
    (hstarted : Started s) (hsent : ∀ p, sent p → p = s.localHello.embeddedIntoHandshakePacket)
    (hpacket : received packet) :
    (handleHello packet).Ensures s
      (fun response t => Progress made received (SentWith sent response) t)
      fun _ t => Progress made received sent t := by
  simp only [handleHello, Method.ensures_bind, Method.ensures_lift, Method.ensures_modify,
    Method.ensures_pure]
  refine ⟨fun foreignHello hparsed => ?_, fun _ _ => .expectingHello hexpecting hstarted hsent⟩
  have hstored : Stored received (·.parsedAsHello) (some foreignHello) foreignHello :=
    ⟨rfl, packet, hpacket, hparsed⟩
  refine ⟨fun helloAck hhelloAck => ?_, fun _ _ => ?_⟩
  · refine .expectingCommit rfl { hstarted with } foreignHello hstored ?_
    rintro p (hp | hresponse)
    · exact .inl (hsent p hp)
    · obtain rfl := Option.some.inj hresponse
      exact .inr (HelloAckPacket.typeId_of_helloAckPacket hhelloAck)
  · exact .expectingCommit rfl { hstarted with } foreignHello hstored fun p hp => .inl (hsent p hp)

theorem handleCommit_progress (hnewKeys : newKeys.Make made)
    (hexpecting : s.packetExpectation = .expectingCommit) (hstarted : Started s)
    (hforeignHello : Stored received (·.parsedAsHello) s.foreignHello foreignHello)
    (hsent : ∀ p, sent p → p = s.localHello.embeddedIntoHandshakePacket ∨
      p.typeId = handshakeTypeHelloAck) (hpacket : received packet) :
    (handleCommit newKeys packet).Ensures s
      (fun response t => Progress made received (SentWith sent response) t)
      fun _ t => Progress made received sent t := by
  simp only [handleCommit, Method.ensures_bind, Method.ensures_lift, Method.ensures_modify,
    Method.ensures_get, Method.ensures_pure]
  -- an exception leaves a Commit or a participant behind, which the next Commit replaces
  have hwaiting (foreignCommit : Option CommitPacket)
      (participant : Option KeyAgreementParticipant) : Progress made received sent
        { s with foreignCommit := foreignCommit, keyAgreementParticipant := participant } :=
    .expectingCommit hexpecting { hstarted with } foreignHello hforeignHello hsent
  refine ⟨fun commit hparsed => ?_,
    fun _ _ => hwaiting s.foreignCommit s.keyAgreementParticipant⟩
  refine ⟨fun _ _ => ?_, fun _ _ => hwaiting s.foreignCommit s.keyAgreementParticipant⟩
  refine ⟨fun participant hparticipant => ?_, fun _ _ => hwaiting _ s.keyAgreementParticipant⟩
  refine ⟨fun dh hdh => ?_, fun _ _ => hwaiting _ _⟩
  obtain ⟨hmade, hagreementSpecId⟩ := made_of_retrieve hnewKeys rfl hparticipant
  obtain ⟨hreadable, hpublicKeyData⟩ :=
    DhPacket.readable_of_dhPacketWithHashChainH0 hstarted.hashes_valid hdh
  refine .expectingDH rfl foreignHello commit participant dh
    { hashes_valid := hstarted.hashes_valid
      hello_readable := hstarted.hello_readable
      foreignHello_stored := hforeignHello
      foreignCommit_stored := ⟨rfl, packet, hpacket, hparsed⟩
      participant_eq := rfl
      participant_made := hmade
      agreementSpecId_eq := hagreementSpecId
      localDH_eq := rfl
      dh_readable := hreadable
      publicKeyData_eq := hpublicKeyData } ?_
  rintro p (hp | hresponse)
  · exact (hsent p hp).imp_right .inr
  · exact .inr (.inl (Option.some.inj hresponse).symm)

theorem handleDH_progress (hexpecting : s.packetExpectation = .expectingDH)
    (hmade : DHMade made received s foreignHello commit participant dh)
    (hsent : ∀ p, sent p → p = s.localHello.embeddedIntoHandshakePacket ∨
      p = dh.embeddedIntoHandshakePacket ∨ p.typeId = handshakeTypeHelloAck)
    (hpacket : received packet) :
    (handleDH packet).Ensures s
      (fun response t => Progress made received (SentWith sent response) t)
      fun _ t => Progress made received sent t := by
  have hwaiting (foreignDH : Option DhPacket) :
      Progress made received sent { s with foreignDH := foreignDH } :=
    .expectingDH hexpecting foreignHello commit participant dh { hmade with } hsent
  simp only [handleDH, Method.ensures_bind, Method.ensures_lift, Method.ensures_modify,
    Method.ensures_get, Method.ensures_pure]
  refine ⟨fun foreignDH hparsed => ?_, fun _ _ => hwaiting s.foreignDH⟩
  refine ⟨fun _ _ => ?_, fun _ _ => hwaiting _⟩
  refine ⟨fun _ _ => ?_, fun _ _ => hwaiting _⟩
  refine ⟨fun participant' hparticipant => ?_, fun _ _ => hwaiting _⟩
  refine ⟨fun dhResult hdhResult => ?_, fun _ _ => hwaiting _⟩
  refine ⟨fun foreignHello' hforeignHello => ?_, fun _ _ => hwaiting _⟩
  refine ⟨fun commit' hforeignCommit => ?_, fun _ _ => hwaiting _⟩
  refine ⟨fun dh' hdh => ?_, fun _ _ => hwaiting _⟩
  refine ⟨fun masterSecret hmasterSecret => ?_, fun _ _ => hwaiting _⟩
  rw [owsRequireNotNil_eq_ok] at hparticipant hforeignHello hforeignCommit hdh
  obtain rfl := Option.some.inj (hmade.participant_eq.symm.trans hparticipant)
  obtain rfl := Option.some.inj (hmade.foreignHello_stored.slot_eq.symm.trans hforeignHello)
  obtain rfl := Option.some.inj (hmade.foreignCommit_stored.slot_eq.symm.trans hforeignCommit)
  obtain rfl := Option.some.inj (hmade.localDH_eq.symm.trans hdh)
  have hsecret : SecretMade made received
      { s with foreignDH := some foreignDH, masterSecret := some masterSecret,
               packetExpectation := .expectingConfirm }
      foreignHello commit participant dh foreignDH masterSecret :=
    { toDHMade := { hmade with }
      foreignDH_stored := ⟨rfl, packet, hpacket, hparsed⟩
      masterSecret_eq := rfl
      masterSecret_made := ⟨dhResult, hdhResult, hmasterSecret⟩ }
  have hsecretSent : SecretSent sent s.localHello dh := fun p hp =>
    (hsent p hp).imp_right (.imp_right .inl)
  refine ⟨fun confirm1 hconfirm1 => ?_, fun _ _ => .secret (.inl rfl) foreignHello commit
    participant dh foreignDH masterSecret hsecret hsecretSent⟩
  refine .secret (.inl rfl) foreignHello commit participant dh foreignDH masterSecret hsecret ?_
  rintro p (hp | hresponse)
  · exact hsecretSent p hp
  · obtain rfl := Option.some.inj hresponse
    exact .inr (.inr (.inr (.inl
      (ConfirmPacket.typeId_of_confirmPacketWithHashChainH0 hconfirm1))))

theorem handleConfirmTwo_progress (hexpecting : s.packetExpectation = .expectingConfirm)
    (hsecret : SecretMade made received s foreignHello commit participant dh foreignDH masterSecret)
    (hsent : SecretSent sent s.localHello dh) :
    (handleConfirmTwo environment packet).Ensures s
      (fun response t => Progress made received (SentWith sent response) t)
      fun _ t => Progress made received sent t := by
  simp only [handleConfirmTwo, Method.ensures_bind, Method.ensures_lift, Method.ensures_modify,
    Method.ensures_get, Method.ensures_pure]
  have hunchanged : Progress made received sent s := .secret (.inl hexpecting) foreignHello commit
    participant dh foreignDH masterSecret hsecret hsent
  refine ⟨fun _ _ => ?_, fun _ _ => hunchanged⟩
  refine ⟨fun _ _ => ?_, fun _ _ => hunchanged⟩
  refine ⟨fun _ _ => ?_, fun _ _ => hunchanged⟩
  have hfinished : SecretMade made received { s with packetExpectation := .expectingNothing }
      foreignHello commit participant dh foreignDH masterSecret := { hsecret with }
  refine ⟨fun confirmAck hconfirmAck => ?_, fun _ _ => .secret (.inr rfl) foreignHello commit
    participant dh foreignDH masterSecret hfinished hsent⟩
  refine .secret (.inr rfl) foreignHello commit participant dh foreignDH masterSecret hfinished ?_
  rintro p (hp | hresponse)
  · exact hsent p hp
  · split at hresponse
    · cases hresponse
    · obtain rfl := Option.some.inj hresponse
      exact .inr (.inr (.inr (.inr (ConfirmAckPacket.typeId_of_confirmAckPacket hconfirmAck))))

theorem handleExpected_progress (hnewKeys : newKeys.Make made) (h : Progress made received sent s)
    (hpacket : received packet) :
    (handleExpected environment newKeys packet).Ensures s
      (fun response t => Progress made received (SentWith sent response) t)
      fun _ t => Progress made received sent t := by
  rw [handleExpected, Method.ensures_bind, Method.ensures_get]
  cases h with
  | expectingHello h hstarted hsent =>
    simpa only [h] using handleHello_progress h hstarted hsent hpacket
  | expectingCommit h hstarted foreignHello hforeignHello hsent =>
    simpa only [h] using handleCommit_progress hnewKeys h hstarted hforeignHello hsent hpacket
  | expectingDH h foreignHello commit participant dh hmade hsent =>
    simpa only [h] using handleDH_progress h hmade hsent hpacket
  | secret h foreignHello commit participant dh foreignDH masterSecret hmade hsent =>
    rcases h with h | h
    · simpa only [h] using handleConfirmTwo_progress h hmade hsent
    · simp only [h, Method.ensures_pure]
      exact .secret (.inr h) foreignHello commit participant dh foreignDH masterSecret hmade
        fun p hp => hsent p (SentWith.of_none hp)

theorem Progress.withCallController (h : Progress made received sent s)
    (callController : List CallControllerMessage) :
    Progress made received sent { s with callController := callController } := by
  cases h with
  | expectingHello h hstarted hsent => exact .expectingHello h { hstarted with } hsent
  | expectingCommit h hstarted foreignHello hforeignHello hsent =>
    exact .expectingCommit h { hstarted with } foreignHello hforeignHello hsent
  | expectingDH h foreignHello commit participant dh hmade hsent =>
    exact .expectingDH h foreignHello commit participant dh { hmade with } hsent
  | secret h foreignHello commit participant dh foreignDH masterSecret hmade hsent =>
    exact .secret h foreignHello commit participant dh foreignDH masterSecret { hmade with } hsent

/-- More may have been received, and less sent. -/
theorem Progress.mono (h : Progress made received sent s) (hr : ∀ p, received p → received' p)
    (hs : ∀ p, sent' p → sent p) : Progress made received' sent' s := by
  cases h with
  | expectingHello h hstarted hsent =>
    exact .expectingHello h hstarted fun p hp => hsent p (hs p hp)
  | expectingCommit h hstarted foreignHello hforeignHello hsent =>
    exact .expectingCommit h hstarted foreignHello (hforeignHello.mono hr)
      fun p hp => hsent p (hs p hp)
  | expectingDH h foreignHello commit participant dh hmade hsent =>
    exact .expectingDH h foreignHello commit participant dh
      { hmade with
        foreignHello_stored := hmade.foreignHello_stored.mono hr
        foreignCommit_stored := hmade.foreignCommit_stored.mono hr }
      fun p hp => hsent p (hs p hp)
  | secret h foreignHello commit participant dh foreignDH masterSecret hmade hsent =>
    exact .secret h foreignHello commit participant dh foreignDH masterSecret
      { hmade with
        foreignHello_stored := hmade.foreignHello_stored.mono hr
        foreignCommit_stored := hmade.foreignCommit_stored.mono hr
        foreignDH_stored := hmade.foreignDH_stored.mono hr }
      fun p hp => hsent p (hs p hp)

theorem handlePacket_progress (hnewKeys : newKeys.Make made) (h : Progress made received sent s)
    (hpacket : received packet) :
    (handlePacket environment newKeys packet).Ensures s
      (fun response t => Progress made received (SentWith sent response) t)
      fun _ t => Progress made received sent t := by
  rw [handlePacket, Method.ensures_tryCatch]
  refine (handleExpected_progress hnewKeys h hpacket).mono (fun _ _ h => h) fun exception t h => ?_
  have hunanswered : Progress made received (SentWith sent none) t :=
    h.mono (fun _ => id) fun _ => SentWith.of_none
  cases exception with
  | securityFailure => exact hunanswered.withCallController _
  | operationFailed description => exact hunanswered
  | badArgument => exact h
  | badState => exact h
  | nsRangeException => exact h

end ZrtpResponder
end SignalIOS.Zrtp
