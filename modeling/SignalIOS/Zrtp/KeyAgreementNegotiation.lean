import SignalIOS.Zrtp.HandshakeAgreement
import SignalIOS.Zrtp.PacketRoundTrip

/-! The negotiation of the key agreement: both roles come to the first protocol of the initiator
that the responder has as well. -/
namespace SignalIOS.Zrtp
open SignalIOS.Lib

theorem handshakeTypes_ne : handshakeTypeHello ≠ handshakeTypeConfirmAck ∧
    handshakeTypeCommit ≠ handshakeTypeConfirmAck ∧ handshakeTypeCommit ≠ handshakeTypeHello ∧
    handshakeTypeHello ≠ handshakeTypeHelloAck := by
  decide

/-- What an environment offers. DH3k is implied, and a Hello has room for seven others. -/
structure Preferences (protocols : List KeyAgreementProtocol) : Prop where
  distinct : (protocols.map (·.getId)).Nodup
  dh3k : commitDefaultAgreeSpecId ∈ protocols.map (·.getId)
  others_le : ((protocols.map (·.getId)).filter (· ≠ commitDefaultAgreeSpecId)).length ≤ maxSpecIds
  length_getId : ∀ protocol ∈ protocols, protocol.getId.length = specIdLength

/-- The ids of the version and of the client are of the sizes that a Hello requires. -/
structure Configured (environment : Environment) : Prop where
  versionId : environment.zrtpVersionId.length = versionIdLength
  clientId : environment.zrtpClientId.length = clientIdLength
  preferences : Preferences environment.keyAgreementProtocolsInDescendingPriority

/-- The random data are of the sizes that are asked for. -/
structure SecureRandomData.Generated (random : SecureRandomData) : Prop where
  seed : random.hashChainSeed.length = hashChainItemLength
  hashes : random.dhSharedSecretHashes.Valid

/-- The Hello is read as it was made, and lists the protocols. -/
structure Advertises (protocols : List KeyAgreementProtocol) (hello : HelloPacket) : Prop where
  parsed : hello.embeddedIntoHandshakePacket.parsedAsHello = .ok hello
  listed : hello.agreeIdsIncludingImplied.Perm (protocols.map (·.getId))

/-- The first of the own protocols that the peer supports. -/
def FirstCommon (own peer : List KeyAgreementProtocol) (protocol : KeyAgreementProtocol) : Prop :=
  protocol ∈ peer ∧ ∃ before after, own = before ++ protocol :: after ∧ ∀ p ∈ before, p ∉ peer

section
variable {own peer protocols : List KeyAgreementProtocol} {protocol : KeyAgreementProtocol}

theorem mem_map_getId : protocol.getId ∈ protocols.map (·.getId) ↔ protocol ∈ protocols := by
  rw [List.mem_map]
  constructor
  · rintro ⟨⟨getId⟩, hmem, rfl⟩
    exact hmem
  · intro hmem
    exact ⟨protocol, hmem, rfl⟩

/-- What has been left out of the Hello is what its reader adds. -/
theorem Preferences.perm (h : Preferences protocols) :
    ((protocols.map (·.getId)).filter (· ≠ commitDefaultAgreeSpecId) ++
      [commitDefaultAgreeSpecId]).Perm (protocols.map (·.getId)) := by
  have hnodup : ((protocols.map (·.getId)).filter (· ≠ commitDefaultAgreeSpecId) ++
      [commitDefaultAgreeSpecId]).Nodup := by
    refine List.nodup_append.mpr ⟨h.distinct.filter _, List.pairwise_singleton _ _, ?_⟩
    intro id hid id' hid'
    rw [List.mem_singleton.mp hid']
    exact of_decide_eq_true (List.mem_filter.mp hid).2
  refine (List.perm_ext_iff_of_nodup hnodup h.distinct).mpr fun id => ?_
  by_cases hid : id = commitDefaultAgreeSpecId
  · simp [hid, h.dh3k]
  · simp [hid]

/-- DH3k is common to any two. -/
theorem Preferences.exists_firstCommon (hown : Preferences own) (hpeer : Preferences peer) :
    ∃ protocol, FirstCommon own peer protocol := by
  have hcommon : (own.find? (· ∈ peer)).isSome = true := by
    rw [List.find?_isSome]
    have hdh3k (protocols) (h : Preferences protocols) : ⟨commitDefaultAgreeSpecId⟩ ∈ protocols :=
      mem_map_getId.mp h.dh3k
    exact ⟨_, hdh3k own hown, decide_eq_true (hdh3k peer hpeer)⟩
  obtain ⟨protocol, hprotocol⟩ := Option.isSome_iff_exists.mp hcommon
  obtain ⟨hmem, before, after, hown, hbefore⟩ := List.find?_eq_some_iff_append.mp hprotocol
  refine ⟨protocol, of_decide_eq_true hmem, before, after, hown, fun p hp hpeer => ?_⟩
  have hnot := hbefore p hp
  simp [hpeer] at hnot

theorem find?_of_firstCommon (h : FirstCommon own peer protocol) {ids : List NSData}
    (hids : ids.Perm (peer.map (·.getId))) :
    own.find? (fun p => ids.contains p.getId) = some protocol := by
  obtain ⟨hmem, before, after, hown, hbefore⟩ := h
  have hcontains (p : KeyAgreementProtocol) : ids.contains p.getId = true ↔ p ∈ peer := by
    rw [List.contains_iff_mem, hids.mem_iff, mem_map_getId]
  refine List.find?_eq_some_iff_append.mpr ⟨(hcontains protocol).mpr hmem, before, after, hown, ?_⟩
  intro p hp
  rw [Bool.not_eq_true', Bool.eq_false_iff]
  exact fun hpeer => hbefore p hp ((hcontains p).mp hpeer)

end

/-- The choice of the initiator. -/
theorem ZrtpInitiator.retrieve_eq {s : ZrtpInitiator} {peer : List KeyAgreementProtocol}
    {protocol : KeyAgreementProtocol}
    (h : FirstCommon s.allowedKeyAgreementProtocols peer protocol) {hello : HelloPacket}
    (hhello : s.foreignHello = some hello)
    (hlisted : hello.agreeIdsIncludingImplied.Perm (peer.map (·.getId))) (newKeys : NewKeys) :
    s.retrieveKeyAgreementParticpant newKeys = newKeys protocol := by
  unfold retrieveKeyAgreementParticpant
  rw [hhello]
  dsimp only [Option.map_some, Option.getD_some]
  rw [find?_of_firstCommon h hlisted]
  rfl

/-- The responder finds what the Commit names. -/
theorem ZrtpResponder.retrieve_eq {s : ZrtpResponder} {protocol : KeyAgreementProtocol}
    (h : protocol ∈ s.allowedKeyAgreementProtocols) {commit : CommitPacket}
    (hcommit : s.foreignCommit = some commit) (hid : commit.agreementSpecId = protocol.getId)
    (newKeys : NewKeys) : s.retrieveKeyAgreementParticipant newKeys = newKeys protocol := by
  unfold retrieveKeyAgreementParticipant
  rw [hcommit, Option.map_some, hid]
  have hfound : (s.allowedKeyAgreementProtocols.find? fun a =>
      some protocol.getId = some a.getId) = some protocol := by
    obtain ⟨found, hfound⟩ := Option.isSome_iff_exists.mp
      (List.find?_isSome.mpr ⟨protocol, h, decide_eq_true rfl⟩ : (s.allowedKeyAgreementProtocols.find?
        fun a => some protocol.getId = some a.getId).isSome = true)
    have hfits := List.find?_some hfound
    have hid : protocol.getId = found.getId := Option.some.inj (of_decide_eq_true hfits)
    rw [hfound]
    cases protocol
    cases found
    cases hid
    rfl
  rw [hfound]
  rfl

section
variable [CryptoTools]

theorem HashChain.hashChainWithSeed_of_length {seed : NSData}
    (h : seed.length = hashChainItemLength) :
    ∃ hashChain, HashChain.hashChainWithSeed seed = .ok hashChain := by
  unfold HashChain.hashChainWithSeed owsRequire
  rw [if_pos h]
  exact ⟨_, rfl⟩

theorem HashChain.length_h3 (htools : CodecLaws) {seed : NSData} {hashChain : HashChain}
    (h : HashChain.hashChainWithSeed seed = .ok hashChain) :
    hashChain.h3.length = hashChainItemLength := by
  obtain ⟨-, -, h⟩ := Throws.bind_eq_ok.mp h
  obtain rfl := Throws.pure_eq_ok.mp h
  exact htools.length_sha256 _

/-- What `helloPacketWithDefaults` is made of. -/
def defaultFields (environment : Environment) (hashChain : HashChain) (zid : Zid)
    (agreeIds : List NSData) : HelloPacket where
  versionId := environment.zrtpVersionId
  clientId := environment.zrtpClientId
  hashChainH3 := hashChain.h3
  zid
  flags0SMP := 0
  flagsUnusedLow4 := 0
  flagsUnusedHigh4 := 0
  hashIds := []
  cipherIds := []
  authIds := []
  agreeIds
  sasIds := []
  embeddedIntoHandshakePacket := ⟨[], []⟩

/-- The Hello of a configured environment is made, and advertises what it has. -/
theorem Configured.advertises (htools : CodecLaws) {environment : Environment}
    (h : Configured environment) {hashChain : HashChain}
    (hh3 : hashChain.h3.length = hashChainItemLength) (zid : Zid) :
    ∃ hello, HelloPacket.helloPacketWithDefaults environment hashChain zid
        environment.keyAgreementProtocolsInDescendingPriority = .ok hello ∧
      Advertises environment.keyAgreementProtocolsInDescendingPriority hello := by
  set protocols := environment.keyAgreementProtocolsInDescendingPriority with hprotocols
  set ids := (protocols.map (·.getId)).filter (· ≠ commitDefaultAgreeSpecId) with hidsDef
  have hids : HelloPacket.getAgreeIdsFromKeyAgreementProtocols protocols = .ok ids := by
    have hany : protocols.any (fun e => e.getId = commitDefaultAgreeSpecId) = true := by
      obtain ⟨e, he, hid⟩ := List.mem_map.mp h.preferences.dh3k
      exact List.any_eq_true.mpr ⟨e, he, decide_eq_true hid⟩
    unfold HelloPacket.getAgreeIdsFromKeyAgreementProtocols owsRequire
    rw [if_pos hany]
    rfl
  have hzero : (0 : UInt8) < 0x10 := by decide
  have hvalid : (defaultFields environment hashChain zid ids).Valid :=
    { versionId := h.versionId
      clientId := h.clientId
      hashChainH3 := hh3
      flags0SMP := hzero
      flagsUnusedLow4 := hzero
      flagsUnusedHigh4 := hzero
      count_le := by
        have hothers := h.preferences.others_le
        simp only [List.forall_mem_cons]
        exact ⟨Nat.zero_le _, Nat.zero_le _, Nat.zero_le _, hothers, Nat.zero_le _, nofun⟩
      length_eq := by
        simp only [List.forall_mem_cons]
        refine ⟨nofun, nofun, nofun, fun id hid => ?_, nofun, nofun⟩
        obtain ⟨protocol, hprotocol, rfl⟩ := List.mem_map.mp (List.mem_filter.mp hid).1
        exact h.preferences.length_getId protocol hprotocol }
  obtain ⟨hello, hmade, hparsed⟩ :=
    (HelloPacket.roundTrips_iff_noFlags hvalid htools.length_hmacSha256 hashChain.h2).mpr
      ⟨rfl, rfl, rfl, rfl⟩
  have hagreeIds : hello.agreeIds = ids := by
    obtain ⟨_, _, _, -, -, hfields⟩ :=
      HelloPacket.helloPacketWithVersion_of_valid hvalid htools.length_hmacSha256 hashChain.h2
    obtain rfl := Except.ok.inj (hfields.symm.trans hmade)
    rfl
  refine ⟨hello, ?_, hparsed, ?_⟩
  · unfold HelloPacket.helloPacketWithDefaults
    rw [hids]
    exact hmade
  · unfold HelloPacket.agreeIdsIncludingImplied
    rw [hagreeIds]
    exact h.preferences.perm

/-- What the Hellos list that are read from the packet. -/
def ListsIn (protocols : List KeyAgreementProtocol) (packet : HandshakePacket) : Prop :=
  ∀ hello, packet.parsedAsHello = .ok hello →
    hello.agreeIdsIncludingImplied.Perm (protocols.map (·.getId))

namespace ZrtpInitiator

/-- Where the initiator is with the negotiation, at every step of the handshake. -/
structure Negotiating (environment : Environment) (peer : List KeyAgreementProtocol)
    (agreed : KeyAgreementProtocol) (s : ZrtpInitiator) : Prop where
  allowed_eq : s.allowedKeyAgreementProtocols = environment.keyAgreementProtocolsInDescendingPriority
  length_h3 : s.hashChain.h3.length = hashChainItemLength
  localHello : ∀ hello, s.localHello = some hello →
    Advertises environment.keyAgreementProtocolsInDescendingPriority hello
  foreignHello : ∀ hello, s.foreignHello = some hello →
    hello.agreeIdsIncludingImplied.Perm (peer.map (·.getId))
  participant : ∀ participant, s.keyAgreementParticipant = some participant →
    participant.getProtocol = agreed

/-- What the negotiation depends on. -/
def negotiation (s : ZrtpInitiator) : List KeyAgreementProtocol × HashChain × Option HelloPacket ×
    Option HelloPacket × Option KeyAgreementParticipant :=
  (s.allowedKeyAgreementProtocols, s.hashChain, s.localHello, s.foreignHello,
    s.keyAgreementParticipant)

variable {environment : Environment} {peer : List KeyAgreementProtocol}
  {agreed : KeyAgreementProtocol} {s t : ZrtpInitiator} {newKeys : NewKeys}
  {packet : HandshakePacket} {made : KeyAgreementParticipant → Prop}

omit [CryptoTools] in
theorem Negotiating.of_eq (h : Negotiating environment peer agreed s)
    (heq : t.negotiation = s.negotiation) : Negotiating environment peer agreed t := by
  simp only [negotiation, Prod.mk.injEq] at heq
  obtain ⟨hallowed, hhashChain, hlocalHello, hforeignHello, hparticipant⟩ := heq
  constructor
  case allowed_eq => exact hallowed.trans h.allowed_eq
  case length_h3 => exact hhashChain ▸ h.length_h3
  case localHello => exact hlocalHello ▸ h.localHello
  case foreignHello => exact hforeignHello ▸ h.foreignHello
  case participant => exact hparticipant ▸ h.participant

theorem fixes_handleHelloAck : Method.Fixes negotiation (handleHelloAck newKeys packet) := by
  refine .bind (.lift _) fun _ => .bind .get fun s => .bind (.lift _) fun _ => ?_
  refine .bind .get fun s => .bind (.lift _) fun participant => .bind (.lift _) fun localDH => ?_
  refine .bind (.modify fun _ => rfl) fun _ => .bind (.lift _) fun foreignHello => ?_
  refine .bind (.lift _) fun commitPacket => .bind (.modify fun _ => rfl) fun _ => ?_
  exact .bind (.modify fun _ => rfl) fun _ => .pure _

theorem fixes_handleDH : Method.Fixes negotiation (handleDH packet) := by
  refine .bind (.lift _) fun foreignDH => .bind (.modify fun _ => rfl) fun _ => ?_
  refine .bind .get fun s => .bind (.lift _) fun _ => .bind (.lift _) fun participant => ?_
  refine .bind (.lift _) fun dhResult => .bind (.lift _) fun localHello => ?_
  refine .bind (.lift _) fun foreignHello => .bind (.lift _) fun commitPacket => ?_
  refine .bind (.lift _) fun localDH => .bind (.lift _) fun masterSecret => ?_
  refine .bind (.modify fun _ => rfl) fun _ => .bind (.modify fun _ => rfl) fun _ => ?_
  exact .pure _

theorem fixes_handleConfirmOne : Method.Fixes negotiation (handleConfirmOne packet) := by
  refine .bind .get fun s => .bind (.lift _) fun masterSecret => .bind (.lift _) fun confirm => ?_
  refine .bind (.lift _) fun _ => .bind (.modify fun _ => rfl) fun _ => ?_
  exact .bind (.lift _) fun confirm2Packet => .pure _

omit [CryptoTools] in
theorem fixes_handleConfirmAck : Method.Fixes negotiation (handleConfirmAck packet) :=
  .bind (.lift _) fun _ => .bind (.modify fun _ => rfl) fun _ => .pure _

/-- The Hello of the peer decides. -/
theorem handleHello_negotiating (htools : CodecLaws) (hconfigured : Configured environment)
    (hagreed : FirstCommon environment.keyAgreementProtocolsInDescendingPriority peer agreed)
    (hnewKeys : newKeys.Make made) (hpacket : ListsIn peer packet)
    (h : Negotiating environment peer agreed s) :
    (handleHello environment newKeys packet).Leaves s (Negotiating environment peer agreed) := by
  simp only [handleHello, Method.Leaves, Method.ensures_bind, Method.ensures_lift,
    Method.ensures_modify, Method.ensures_get, Method.ensures_pure]
  refine ⟨fun foreignHello hparsed => ?_, fun _ _ => h⟩
  have hforeign : ∀ hello, some foreignHello = some hello →
      hello.agreeIdsIncludingImplied.Perm (peer.map (·.getId)) := by
    rintro hello ⟨⟩
    exact hpacket _ hparsed
  refine ⟨fun participant hparticipant => ?_, fun _ _ => { h with foreignHello := hforeign }⟩
  have hprotocol : participant.getProtocol = agreed := by
    rw [retrieve_eq (h.allowed_eq.symm ▸ hagreed) rfl (hforeign _ rfl)] at hparticipant
    exact (hnewKeys agreed participant hparticipant).1
  have hchosen : ∀ a, some participant = some a → a.getProtocol = agreed := by
    rintro a ⟨⟩
    exact hprotocol
  refine ⟨fun localHello hlocalHello => ?_,
    fun _ _ => { h with foreignHello := hforeign, participant := hchosen }⟩
  obtain ⟨hello, hmade, hadvertises⟩ := hconfigured.advertises htools h.length_h3 s.zid
  have hlocal : ∀ hello, some localHello = some hello →
      Advertises environment.keyAgreementProtocolsInDescendingPriority hello := by
    rintro _ ⟨⟩
    rw [h.allowed_eq] at hlocalHello
    obtain rfl := Except.ok.inj (hmade.symm.trans hlocalHello)
    exact hadvertises
  exact { h with foreignHello := hforeign, participant := hchosen, localHello := hlocal }

theorem handlePacket_negotiating (htools : CodecLaws) (hconfigured : Configured environment)
    (hagreed : FirstCommon environment.keyAgreementProtocolsInDescendingPriority peer agreed)
    (hnewKeys : newKeys.Make made) (hpacket : ListsIn peer packet)
    (h : Negotiating environment peer agreed s) :
    (handlePacket environment newKeys packet).Leaves s (Negotiating environment peer agreed) := by
  have hfixes {x : RoleMethod ZrtpInitiator (Option HandshakePacket)}
      (hx : Method.Fixes negotiation x) : x.Leaves s (Negotiating environment peer agreed) :=
    (hx s).mono (fun _ _ => h.of_eq) fun _ _ => h.of_eq
  have hexpected :
      (handleExpected environment newKeys packet).Leaves s (Negotiating environment peer agreed) := by
    rw [handleExpected, Method.Leaves, Method.ensures_bind, Method.ensures_get]
    split
    · exact handleHello_negotiating htools hconfigured hagreed hnewKeys hpacket h
    · exact hfixes fixes_handleHelloAck
    · exact hfixes fixes_handleDH
    · exact hfixes fixes_handleConfirmOne
    · exact hfixes fixes_handleConfirmAck
    · exact h
    · exact h
  rw [handlePacket, Method.Leaves, Method.ensures_tryCatch]
  refine hexpected.mono (fun _ _ h => h) fun exception t h => ?_
  cases exception with
  | securityFailure => exact h.of_eq rfl
  | operationFailed description => exact h
  | badArgument => exact h
  | badState => exact h
  | nsRangeException => exact h

/-- What the factory of the initiator makes. -/
theorem made_negotiating (htools : CodecLaws) {random : SecureRandomData}
    (hrandom : random.Generated) (environment : Environment) (peer : List KeyAgreementProtocol)
    (agreed : KeyAgreementProtocol) : ∃ s, zrtpInitiator environment random = .ok s ∧
      Negotiating environment peer agreed s := by
  obtain ⟨hashChain, hhashChain⟩ := HashChain.hashChainWithSeed_of_length hrandom.seed
  unfold zrtpInitiator
  rw [hhashChain]
  exact ⟨_, rfl, rfl, HashChain.length_h3 htools hhashChain, nofun, nofun, nofun⟩

end ZrtpInitiator

namespace ZrtpResponder

/-- Where the responder is with the negotiation, at every step of the handshake. -/
structure Negotiating (environment : Environment) (peer : List KeyAgreementProtocol)
    (agreed : KeyAgreementProtocol) (s : ZrtpResponder) : Prop where
  allowed_eq : s.allowedKeyAgreementProtocols = environment.keyAgreementProtocolsInDescendingPriority
  localHello : Advertises environment.keyAgreementProtocolsInDescendingPriority s.localHello
  foreignHello : ∀ hello, s.foreignHello = some hello →
    hello.agreeIdsIncludingImplied.Perm (peer.map (·.getId))
  foreignCommit : ∀ commit, s.foreignCommit = some commit → commit.agreementSpecId = agreed.getId
  participant : ∀ participant, s.keyAgreementParticipant = some participant →
    participant.getProtocol = agreed

/-- What the negotiation depends on. -/
def negotiation (s : ZrtpResponder) : List KeyAgreementProtocol × HelloPacket ×
    Option HelloPacket × Option CommitPacket × Option KeyAgreementParticipant :=
  (s.allowedKeyAgreementProtocols, s.localHello, s.foreignHello, s.foreignCommit,
    s.keyAgreementParticipant)

variable {environment : Environment} {peer : List KeyAgreementProtocol}
  {agreed : KeyAgreementProtocol} {s t : ZrtpResponder} {newKeys : NewKeys}
  {packet : HandshakePacket} {made : KeyAgreementParticipant → Prop}

omit [CryptoTools] in
theorem Negotiating.of_eq (h : Negotiating environment peer agreed s)
    (heq : t.negotiation = s.negotiation) : Negotiating environment peer agreed t := by
  simp only [negotiation, Prod.mk.injEq] at heq
  obtain ⟨hallowed, hlocalHello, hforeignHello, hforeignCommit, hparticipant⟩ := heq
  constructor
  case allowed_eq => exact hallowed.trans h.allowed_eq
  case localHello => exact hlocalHello ▸ h.localHello
  case foreignHello => exact hforeignHello ▸ h.foreignHello
  case foreignCommit => exact hforeignCommit ▸ h.foreignCommit
  case participant => exact hparticipant ▸ h.participant

omit [CryptoTools] in
theorem handleHello_negotiating (hpacket : ListsIn peer packet)
    (h : Negotiating environment peer agreed s) :
    (handleHello packet).Leaves s (Negotiating environment peer agreed) := by
  simp only [handleHello, Method.Leaves, Method.ensures_bind, Method.ensures_lift,
    Method.ensures_modify, Method.ensures_pure]
  refine ⟨fun foreignHello hparsed => ?_, fun _ _ => h⟩
  have hforeign : ∀ hello, some foreignHello = some hello →
      hello.agreeIdsIncludingImplied.Perm (peer.map (·.getId)) := by
    rintro hello ⟨⟩
    exact hpacket _ hparsed
  exact ⟨fun _ _ => { h with foreignHello := hforeign },
    fun _ _ => { h with foreignHello := hforeign }⟩

/-- The Commit of the peer names what has been chosen. -/
theorem handleCommit_negotiating
    (hagreed : agreed ∈ environment.keyAgreementProtocolsInDescendingPriority)
    (hnewKeys : newKeys.Make made) (hpacket : ∀ commit, packet.parsedAsCommitPacket = .ok commit →
      commit.agreementSpecId = agreed.getId) (h : Negotiating environment peer agreed s) :
    (handleCommit newKeys packet).Leaves s (Negotiating environment peer agreed) := by
  simp only [handleCommit, Method.Leaves, Method.ensures_bind, Method.ensures_lift,
    Method.ensures_modify, Method.ensures_get, Method.ensures_pure]
  refine ⟨fun commit hparsed => ?_, fun _ _ => h⟩
  refine ⟨fun _ _ => ?_, fun _ _ => h⟩
  have hforeign : ∀ c, some commit = some c → c.agreementSpecId = agreed.getId := by
    rintro c ⟨⟩
    exact hpacket _ hparsed
  refine ⟨fun participant hparticipant => ?_, fun _ _ => { h with foreignCommit := hforeign }⟩
  have hchosen : ∀ a, some participant = some a → a.getProtocol = agreed := by
    rintro a ⟨⟩
    rw [retrieve_eq (h.allowed_eq.symm ▸ hagreed) rfl (hforeign _ rfl)] at hparticipant
    exact (hnewKeys agreed participant hparticipant).1
  exact ⟨fun _ _ => { h with foreignCommit := hforeign, participant := hchosen },
    fun _ _ => { h with foreignCommit := hforeign, participant := hchosen }⟩

theorem fixes_handleDH : Method.Fixes negotiation (handleDH packet) := by
  refine .bind (.lift _) fun foreignDH => .bind (.modify fun _ => rfl) fun _ => ?_
  refine .bind .get fun s => .bind (.lift _) fun _ => .bind (.lift _) fun _ => ?_
  refine .bind (.lift _) fun participant => .bind (.lift _) fun dhResult => ?_
  refine .bind (.lift _) fun foreignHello => .bind (.lift _) fun foreignCommit => ?_
  refine .bind (.lift _) fun localDH => .bind (.lift _) fun masterSecret => ?_
  refine .bind (.modify fun _ => rfl) fun _ => .bind (.modify fun _ => rfl) fun _ => ?_
  exact .bind (.lift _) fun confirm2Packet => .pure _

theorem fixes_handleConfirmTwo :
    Method.Fixes negotiation (handleConfirmTwo environment packet) := by
  refine .bind .get fun s => .bind (.lift _) fun masterSecret => .bind (.lift _) fun confirm => ?_
  refine .bind (.lift _) fun _ => .bind (.modify fun _ => rfl) fun _ => ?_
  exact .bind (.lift _) fun confirmAck => .pure _

theorem handlePacket_negotiating
    (hagreed : agreed ∈ environment.keyAgreementProtocolsInDescendingPriority)
    (hnewKeys : newKeys.Make made) (hhello : ListsIn peer packet)
    (hcommit : ∀ commit, packet.parsedAsCommitPacket = .ok commit →
      commit.agreementSpecId = agreed.getId) (h : Negotiating environment peer agreed s) :
    (handlePacket environment newKeys packet).Leaves s (Negotiating environment peer agreed) := by
  have hfixes {x : RoleMethod ZrtpResponder (Option HandshakePacket)}
      (hx : Method.Fixes negotiation x) : x.Leaves s (Negotiating environment peer agreed) :=
    (hx s).mono (fun _ _ => h.of_eq) fun _ _ => h.of_eq
  have hexpected :
      (handleExpected environment newKeys packet).Leaves s (Negotiating environment peer agreed) := by
    rw [handleExpected, Method.Leaves, Method.ensures_bind, Method.ensures_get]
    split
    · exact handleHello_negotiating hhello h
    · exact handleCommit_negotiating hagreed hnewKeys hcommit h
    · exact hfixes fixes_handleDH
    · exact hfixes fixes_handleConfirmTwo
    · exact h
    · exact h
    · exact h
  rw [handlePacket, Method.Leaves, Method.ensures_tryCatch]
  refine hexpected.mono (fun _ _ h => h) fun exception t h => ?_
  cases exception with
  | securityFailure => exact h.of_eq rfl
  | operationFailed description => exact h
  | badArgument => exact h
  | badState => exact h
  | nsRangeException => exact h

/-- What the factory of the responder makes. -/
theorem made_negotiating (htools : CodecLaws) (hconfigured : Configured environment)
    {random : SecureRandomData} (hrandom : random.Generated) (peer : List KeyAgreementProtocol)
    (agreed : KeyAgreementProtocol) : ∃ s, zrtpResponder environment random = .ok s ∧
      Negotiating environment peer agreed s := by
  obtain ⟨hashChain, hhashChain⟩ := HashChain.hashChainWithSeed_of_length hrandom.seed
  obtain ⟨hello, hhello, hadvertises⟩ :=
    hconfigured.advertises htools (HashChain.length_h3 htools hhashChain) Zid.nullZid
  unfold zrtpResponder
  rw [hhashChain]
  dsimp only [bind, Except.bind]
  rw [hhello]
  exact ⟨_, rfl, rfl, hadvertises, nofun, nofun, nofun⟩

end ZrtpResponder

section
variable {made : KeyAgreementParticipant → Prop} {received sent : HandshakePacket → Prop}
  {p : HandshakePacket}

/-- The Hello of the initiator that arrives is the one it has. -/
theorem ZrtpInitiator.Progress.hello_sent {s : ZrtpInitiator} (h : s.Progress made received sent)
    (hp : sent p ∨ p.typeId = handshakeTypeConfirmAck) (htype : p.typeId = handshakeTypeHello) :
    ∃ hello, s.localHello = some hello ∧ p = hello.embeddedIntoHandshakePacket := by
  have hsent : sent p := hp.resolve_right fun hack => handshakeTypes_ne.1 (htype.symm.trans hack)
  cases h with
  | expectingHello _ _ hunsent => exact absurd hsent (hunsent p)
  | expectingHelloAck _ hello foreignHello participant hmade hcases =>
    exact ⟨hello, hmade.localHello_eq, hcases p hsent⟩
  | expectingDH _ hello foreignHello participant dh commit hmade hcases =>
    have hall : SecretSent sent hello dh commit := fun p hp => (hcases p hp).imp_right .inl
    exact ⟨hello, hmade.localHello_eq, (hall.delivered hmade.hello_readable hmade.dh_readable
      hmade.commit_readable hp).1 htype⟩
  | secret _ hello foreignHello participant dh commit foreignDH masterSecret hmade hall =>
    exact ⟨hello, hmade.localHello_eq, (hall.delivered hmade.hello_readable hmade.dh_readable
      hmade.commit_readable hp).1 htype⟩

/-- The Commit that arrives names the protocol of the participant. -/
theorem ZrtpInitiator.Progress.commit_sent {s : ZrtpInitiator} (h : s.Progress made received sent)
    (hp : sent p ∨ p.typeId = handshakeTypeConfirmAck) (htype : p.typeId = handshakeTypeCommit) :
    ∃ participant, ∃ commit : CommitPacket, s.keyAgreementParticipant = some participant ∧
      commit.Readable ∧ commit.agreementSpecId = participant.getProtocol.getId ∧
      p = commit.embeddedIntoHandshakePacket := by
  have hsent : sent p := hp.resolve_right fun hack => handshakeTypes_ne.2.1 (htype.symm.trans hack)
  cases h with
  | expectingHello _ _ hunsent => exact absurd hsent (hunsent p)
  | expectingHelloAck _ hello foreignHello participant hmade hcases =>
    have hhello := hmade.hello_readable.typeId
    rw [← hcases p hsent, htype] at hhello
    exact absurd hhello handshakeTypes_ne.2.2.1
  | expectingDH _ hello foreignHello participant dh commit hmade hcases =>
    have hall : SecretSent sent hello dh commit := fun p hp => (hcases p hp).imp_right .inl
    exact ⟨participant, commit, hmade.participant_eq, hmade.commit_readable,
      hmade.agreementSpecId_eq, (hall.delivered hmade.hello_readable hmade.dh_readable
        hmade.commit_readable hp).2.1 htype⟩
  | secret _ hello foreignHello participant dh commit foreignDH masterSecret hmade hall =>
    exact ⟨participant, commit, hmade.participant_eq, hmade.commit_readable,
      hmade.agreementSpecId_eq, (hall.delivered hmade.hello_readable hmade.dh_readable
        hmade.commit_readable hp).2.1 htype⟩

/-- The Hello of the responder that arrives is the one it has. -/
theorem ZrtpResponder.Progress.hello_sent {s : ZrtpResponder} (h : s.Progress made received sent)
    (hp : sent p ∨ p.typeId = handshakeTypeConfirmAck) (htype : p.typeId = handshakeTypeHello) :
    p = s.localHello.embeddedIntoHandshakePacket := by
  have hsent : sent p := hp.resolve_right fun hack => handshakeTypes_ne.1 (htype.symm.trans hack)
  cases h with
  | expectingHello _ _ hcases => exact hcases p hsent
  | expectingCommit _ _ foreignHello _ hcases =>
    exact (hcases p hsent).resolve_right fun hack => handshakeTypes_ne.2.2.2 (htype.symm.trans hack)
  | expectingDH _ foreignHello commit participant dh hmade hcases =>
    have hall : SecretSent sent s.localHello dh :=
      fun p hp => (hcases p hp).imp_right (.imp_right .inl)
    exact (hall.delivered hmade.hello_readable hmade.dh_readable hp).1 htype
  | secret _ foreignHello commit participant dh foreignDH masterSecret hmade hall =>
    exact (hall.delivered hmade.hello_readable hmade.dh_readable hp).1 htype

/-- What a role keeps to as it handles packets, it keeps to within its manager. -/
theorem ManagerEvent.handle_leaves_role {I : ZrtpRole → Prop} (environment : Environment)
    {sentByPeer : List HandshakePacket}
    (hI : ∀ newKeys packet role, newKeys.Make made → Delivered sentByPeer packet → I role →
      I (role.handlePacket environment newKeys packet).2)
    {event : ManagerEvent} {s : ZrtpManager} (hmakes : event.Makes made)
    (hevent : event.canHappen sentByPeer s = true) (h : I s.zrtpRole) :
    (event.handle environment).Leaves s fun t => I t.zrtpRole := by
  have hkept : ZrtpManager.KeptByResending fun t => I t.zrtpRole :=
    fun _ _ h hst => (congrArg I hst.zrtpRole_eq).mpr h
  refine ManagerEvent.handle_leaves environment hkept ?_ hmakes hevent h
  intro newKeys packet hnewKeys hpacket
  have hrole := hI newKeys packet s.zrtpRole hnewKeys hpacket h
  exact ZrtpManager.handleHandshakePacket_leaves hkept h hrole fun _ _ => hrole

end

theorem ZrtpRole.handlePacket_initiator {environment : Environment} {newKeys : NewKeys}
    {packet : HandshakePacket} {role : ZrtpInitiator} {I : ZrtpInitiator → Prop}
    (h : (ZrtpInitiator.handlePacket environment newKeys packet).Leaves role I) :
    ∃ s, ((initiator role).handlePacket environment newKeys packet).2 = .initiator s ∧ I s :=
  ⟨_, rfl, h.run⟩

theorem ZrtpRole.handlePacket_responder {environment : Environment} {newKeys : NewKeys}
    {packet : HandshakePacket} {role : ZrtpResponder} {I : ZrtpResponder → Prop}
    (h : (ZrtpResponder.handlePacket environment newKeys packet).Leaves role I) :
    ∃ s, ((responder role).handlePacket environment newKeys packet).2 = .responder s ∧ I s :=
  ⟨_, rfl, h.run⟩

namespace Handshake

/-- Where both roles are with the negotiation. -/
structure Negotiating (initiatorEnvironment responderEnvironment : Environment)
    (agreed : KeyAgreementProtocol) (s : Handshake) : Prop where
  initiator : ∃ role, s.initiator.zrtpRole = .initiator role ∧ role.Negotiating
    initiatorEnvironment responderEnvironment.keyAgreementProtocolsInDescendingPriority agreed
  responder : ∃ role, s.responder.zrtpRole = .responder role ∧ role.Negotiating
    responderEnvironment initiatorEnvironment.keyAgreementProtocolsInDescendingPriority agreed

variable {initiatorEnvironment responderEnvironment : Environment} {agreed : KeyAgreementProtocol}
  {initiator : ZrtpInitiator} {responder : ZrtpResponder} {made : KeyAgreementParticipant → Prop}
  {s t : Handshake} {packet : HandshakePacket}

/-- What arrives at the initiator are Hellos of the responder. -/
theorem Negotiating.lists_responder
    (h : s.Negotiating initiatorEnvironment responderEnvironment agreed) (hprogress : s.Progress made)
    (hpacket : Delivered s.responder.handshakeSocket packet) :
    ListsIn responderEnvironment.keyAgreementProtocolsInDescendingPriority packet := by
  intro hello hparsed
  obtain ⟨role, hrole, hnegotiating⟩ := h.responder
  have hresponder := hprogress.responder
  rw [hrole] at hresponder
  have hsent : s.responder.Sends packet ∨ packet.typeId = handshakeTypeConfirmAck :=
    hpacket.imp_left .inl
  obtain rfl := hresponder.2.hello_sent hsent (HelloPacket.parsedAsHello_eq_ok hparsed).1
  obtain rfl := Except.ok.inj (hnegotiating.localHello.parsed.symm.trans hparsed)
  exact hnegotiating.localHello.listed

theorem Negotiating.lists_initiator
    (h : s.Negotiating initiatorEnvironment responderEnvironment agreed) (hprogress : s.Progress made)
    (hpacket : Delivered s.initiator.handshakeSocket packet) :
    ListsIn initiatorEnvironment.keyAgreementProtocolsInDescendingPriority packet := by
  intro hello hparsed
  obtain ⟨role, hrole, hnegotiating⟩ := h.initiator
  have hinitiator := hprogress.initiator
  rw [hrole] at hinitiator
  have hsent : s.initiator.Sends packet ∨ packet.typeId = handshakeTypeConfirmAck :=
    hpacket.imp_left .inl
  obtain ⟨localHello, hlocalHello, rfl⟩ :=
    hinitiator.2.hello_sent hsent (HelloPacket.parsedAsHello_eq_ok hparsed).1
  have hadvertises := hnegotiating.localHello localHello hlocalHello
  obtain rfl := Except.ok.inj (hadvertises.parsed.symm.trans hparsed)
  exact hadvertises.listed

/-- What arrives at the responder are Commits to what the initiator has chosen. -/
theorem Negotiating.commits
    (h : s.Negotiating initiatorEnvironment responderEnvironment agreed) (hprogress : s.Progress made)
    (hpacket : Delivered s.initiator.handshakeSocket packet) {commit : CommitPacket}
    (hparsed : packet.parsedAsCommitPacket = .ok commit) :
    commit.agreementSpecId = agreed.getId := by
  obtain ⟨role, hrole, hnegotiating⟩ := h.initiator
  have hinitiator := hprogress.initiator
  rw [hrole] at hinitiator
  have hsent : s.initiator.Sends packet ∨ packet.typeId = handshakeTypeConfirmAck :=
    hpacket.imp_left .inl
  obtain ⟨participant, commitPacket, hparticipant, hreadable, hid, rfl⟩ :=
    hinitiator.2.commit_sent hsent (CommitPacket.parsedAsCommitPacket_eq_ok hparsed).1
  rw [hreadable.parsed hparsed, hid, hnegotiating.participant participant hparticipant]

theorem step_negotiating (htools : CodecLaws) (hinitiator : Configured initiatorEnvironment)
    (hagreed : FirstCommon initiatorEnvironment.keyAgreementProtocolsInDescendingPriority
      responderEnvironment.keyAgreementProtocolsInDescendingPriority agreed)
    {event : HandshakeEvent} (hmakes : event.Makes made) (hprogress : s.Progress made)
    (h : s.Negotiating initiatorEnvironment responderEnvironment agreed)
    (hstep : (machine initiatorEnvironment responderEnvironment initiator responder).step s event =
      some t) : t.Negotiating initiatorEnvironment responderEnvironment agreed := by
  cases event with
  | initiator event =>
    obtain ⟨hevent, hstep⟩ := Option.ite_none_right_eq_some.mp hstep
    obtain rfl := Option.some.inj hstep
    have hleaves := ManagerEvent.handle_leaves_role
      (I := fun r => ∃ role, r = .initiator role ∧ role.Negotiating initiatorEnvironment
        responderEnvironment.keyAgreementProtocolsInDescendingPriority agreed)
      initiatorEnvironment ?_ hmakes hevent h.initiator
    · exact ⟨hleaves.run, h.responder⟩
    · rintro newKeys packet _ hnewKeys hpacket ⟨role, rfl, hrole⟩
      exact ZrtpRole.handlePacket_initiator (ZrtpInitiator.handlePacket_negotiating htools
        hinitiator hagreed hnewKeys (h.lists_responder hprogress hpacket) hrole)
  | responder event =>
    obtain ⟨hevent, hstep⟩ := Option.ite_none_right_eq_some.mp hstep
    obtain rfl := Option.some.inj hstep
    have hleaves := ManagerEvent.handle_leaves_role
      (I := fun r => ∃ role, r = .responder role ∧ role.Negotiating responderEnvironment
        initiatorEnvironment.keyAgreementProtocolsInDescendingPriority agreed)
      responderEnvironment ?_ hmakes hevent h.responder
    · exact ⟨h.initiator, hleaves.run⟩
    · rintro newKeys packet _ hnewKeys hpacket ⟨role, rfl, hrole⟩
      exact ZrtpRole.handlePacket_responder (ZrtpResponder.handlePacket_negotiating hagreed.1
        hnewKeys (h.lists_initiator hprogress hpacket)
        (fun _ => h.commits hprogress hpacket) hrole)

/-- Neither role fails to find a participant, and both find one of the protocol `agreed`. What is
retrieved while a packet is handled depends on what is there afterwards. -/
structure Negotiated (initiatorEnvironment responderEnvironment : Environment)
    (agreed : KeyAgreementProtocol) (s : Handshake) : Prop
    extends s.Negotiating initiatorEnvironment responderEnvironment agreed where
  initiator_retrieves : ∀ role hello newKeys, s.initiator.zrtpRole = .initiator role →
    role.foreignHello = some hello → role.retrieveKeyAgreementParticpant newKeys = newKeys agreed
  responder_retrieves : ∀ role commit newKeys, s.responder.zrtpRole = .responder role →
    role.foreignCommit = some commit →
    role.retrieveKeyAgreementParticipant newKeys = newKeys agreed

omit [CryptoTools] in
theorem Negotiating.negotiated
    (h : s.Negotiating initiatorEnvironment responderEnvironment agreed)
    (hagreed : FirstCommon initiatorEnvironment.keyAgreementProtocolsInDescendingPriority
      responderEnvironment.keyAgreementProtocolsInDescendingPriority agreed) :
    s.Negotiated initiatorEnvironment responderEnvironment agreed := by
  refine { h with initiator_retrieves := ?_, responder_retrieves := ?_ }
  · intro role hello newKeys hrole hhello
    obtain ⟨role', hrole', hnegotiating⟩ := h.initiator
    obtain rfl := ZrtpRole.initiator.inj (hrole.symm.trans hrole')
    exact ZrtpInitiator.retrieve_eq (hnegotiating.allowed_eq.symm ▸ hagreed) hhello
      (hnegotiating.foreignHello hello hhello) newKeys
  · intro role commit newKeys hrole hcommit
    obtain ⟨role', hrole', hnegotiating⟩ := h.responder
    obtain rfl := ZrtpRole.responder.inj (hrole.symm.trans hrole')
    exact ZrtpResponder.retrieve_eq (hnegotiating.allowed_eq.symm ▸ hagreed.1) hcommit
      (hnegotiating.foreignCommit commit hcommit) newKeys

/-- For any two lists of preferences both roles can be made, and in every state that a handshake
reaches they are to come, or have come, to the first protocol of the initiator that the responder
has. -/
theorem negotiated_of_run (htools : CodecLaws) (hinitiator : Configured initiatorEnvironment)
    (hresponder : Configured responderEnvironment) {initiatorRandom responderRandom :
      SecureRandomData} (hinitiatorRandom : initiatorRandom.Generated)
    (hresponderRandom : responderRandom.Generated) : ∃ agreed initiator responder,
      FirstCommon initiatorEnvironment.keyAgreementProtocolsInDescendingPriority
        responderEnvironment.keyAgreementProtocolsInDescendingPriority agreed ∧
      ZrtpInitiator.zrtpInitiator initiatorEnvironment initiatorRandom = .ok initiator ∧
      ZrtpResponder.zrtpResponder responderEnvironment responderRandom = .ok responder ∧
      ∀ tr, (machine initiatorEnvironment responderEnvironment initiator responder).Run tr →
        (∀ event ∈ tr.map Prod.fst, event.Makes made) →
        ((machine initiatorEnvironment responderEnvironment initiator responder).last tr).Negotiated
          initiatorEnvironment responderEnvironment agreed := by
  obtain ⟨agreed, hagreed⟩ :=
    hinitiator.preferences.exists_firstCommon hresponder.preferences
  obtain ⟨initiator, hinitiatorMade, hinitiatorNegotiating⟩ :=
    ZrtpInitiator.made_negotiating htools hinitiatorRandom initiatorEnvironment
      responderEnvironment.keyAgreementProtocolsInDescendingPriority agreed
  obtain ⟨responder, hresponderMade, hresponderNegotiating⟩ :=
    ZrtpResponder.made_negotiating htools hresponder hresponderRandom
      initiatorEnvironment.keyAgreementProtocolsInDescendingPriority agreed
  refine ⟨agreed, initiator, responder, hagreed, hinitiatorMade, hresponderMade, ?_⟩
  intro tr hrun hmakes
  apply Negotiating.negotiated _ hagreed
  induction tr with
  | nil => exact ⟨⟨initiator, rfl, hinitiatorNegotiating⟩, _, rfl, hresponderNegotiating.of_eq rfl⟩
  | cons p tr ih =>
    obtain ⟨hrun, hstep⟩ := hrun
    obtain ⟨hmakesLast, hmakes⟩ := List.forall_mem_cons.mp hmakes
    have hprogress := run_progress hinitiatorRandom.hashes hresponderRandom.hashes hinitiatorMade
      hresponderMade hrun hmakes
    exact step_negotiating htools hinitiator hagreed hmakesLast hprogress (ih hrun hmakes) hstep

end Handshake

end

section Sample

local instance negotiationCryptoTools : CryptoTools := sampleCryptoTools

def dh3k : KeyAgreementProtocol := ⟨commitDefaultAgreeSpecId⟩

def ec25 : KeyAgreementProtocol := ⟨encodedAsAscii "EC25"⟩

def preferring (protocols : List KeyAgreementProtocol) : Environment :=
  { sampleEnvironment with keyAgreementProtocolsInDescendingPriority := protocols }

def negotiationMachine (initiator : ZrtpInitiator) (responder : ZrtpResponder) :
    Machine Handshake HandshakeEvent :=
  Handshake.machine (preferring [ec25, dh3k]) (preferring [dh3k, ec25]) initiator responder

/-- The initiator prefers EC25 to DH3k, the responder does not. -/
theorem negotiated_ec25 : ∃ initiator responder tr,
    ZrtpInitiator.zrtpInitiator (preferring [ec25, dh3k]) (sampleRandom 1) = .ok initiator ∧
    ZrtpResponder.zrtpResponder (preferring [dh3k, ec25]) (sampleRandom 2) = .ok responder ∧
    (negotiationMachine initiator responder).exec (sampleEvents
      (negotiationMachine initiator responder) (Handshake.start initiator responder)
      sampleScript) = some tr ∧
    ((negotiationMachine initiator responder).last
      tr).responder.zrtpRole.hasHandshakeFinishedSuccessfully = true ∧
    ((negotiationMachine initiator responder).last tr).Negotiated (preferring [ec25, dh3k])
      (preferring [dh3k, ec25]) ec25 := by
  have hfinished : (ZrtpInitiator.zrtpInitiator (preferring [ec25, dh3k])
      (sampleRandom 1)).toOption.bind (fun initiator =>
        (ZrtpResponder.zrtpResponder (preferring [dh3k, ec25])
          (sampleRandom 2)).toOption.bind fun responder =>
            ((negotiationMachine initiator responder).exec (sampleEvents
              (negotiationMachine initiator responder) (Handshake.start initiator responder)
              sampleScript)).map fun tr => ((negotiationMachine initiator responder).last
                tr).responder.zrtpRole.hasHandshakeFinishedSuccessfully) = some true := by
    decide +kernel
  have hgenerated (byte : UInt8) : (sampleRandom byte).Generated :=
    ⟨List.length_replicate, rfl, rfl, rfl, rfl⟩
  obtain ⟨agreed, initiator, responder, hagreed, hinitiator, hresponder, hnegotiated⟩ :=
    Handshake.negotiated_of_run FactoryArguments.codecLaws_sample
      (⟨rfl, rfl, by constructor <;> decide⟩ : Configured (preferring [ec25, dh3k]))
      (⟨rfl, rfl, by constructor <;> decide⟩ : Configured (preferring [dh3k, ec25]))
      (hgenerated 1) (hgenerated 2)
  obtain rfl : ec25 = agreed :=
    Option.some.inj ((by decide : _ = some ec25).symm.trans (find?_of_firstCommon hagreed (.refl _)))
  rw [hinitiator, hresponder] at hfinished
  obtain ⟨tr, htr, hfinished⟩ := Option.map_eq_some_iff.mp hfinished
  refine ⟨initiator, responder, tr, hinitiator, hresponder, htr, hfinished, ?_⟩
  apply hnegotiated tr (Machine.run_of_exec htr)
  rw [Machine.map_fst_of_exec htr]
  intro event hevent
  exact makes_of_mem_sampleEvents _ _ _ event (List.mem_reverse.mp hevent)

end Sample

end SignalIOS.Zrtp
