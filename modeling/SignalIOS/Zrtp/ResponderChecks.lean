import SignalIOS.Zrtp.ZrtpResponder

/-! What the responder has verified about the packets it has stored. The checks are spread over
the handlers: each packet is checked when the preimage in the next one arrives. -/
namespace SignalIOS.Zrtp
open SignalIOS.Lib

/-- The slot holds what some packet that was received parses as. -/
structure Stored {α : Type} (received : HandshakePacket → Prop)
    (parsed : HandshakePacket → Throws α) (slot : Option α) (packet : α) : Prop where
  slot_eq : slot = some packet
  received : ∃ p, received p ∧ parsed p = .ok packet

theorem Stored.mono {α : Type} {received received' : HandshakePacket → Prop}
    {parsed : HandshakePacket → Throws α} {slot : Option α} {packet : α}
    (h : Stored received parsed slot packet) (hr : ∀ p, received p → received' p) :
    Stored received' parsed slot packet :=
  ⟨h.slot_eq, h.received.imp fun _ hp => ⟨hr _ hp.1, hp.2⟩⟩

theorem Stored.of_tell {α : Type} {received : HandshakePacket → Prop}
    {parsed : HandshakePacket → Throws α} {slot : Option α} {packet : α}
    {message : α → Throws Unit} {u : Unit} (h : Stored received parsed slot packet)
    (ht : tell slot message = .ok u) : message packet = .ok u := by
  rwa [h.slot_eq] at ht

variable [CryptoTools]

section
variable {u : Unit}

theorem HelloPacket.verifiedBy {p : HelloPacket} {h2 : NSData}
    (h : p.verifyMacWithHashChainH2 h2 = .ok u) :
    p.embeddedIntoHandshakePacket.VerifiedBy p.hashChainH3 h2 :=
  HandshakePacket.verifiedBy_of_verifyMacWithPreimage h

theorem CommitPacket.verifiedBy {p : CommitPacket} {h1 : NSData}
    (h : p.verifyMacWithHashChainH1 h1 = .ok u) :
    p.embeddedIntoHandshakePacket.VerifiedBy p.h2 h1 :=
  HandshakePacket.verifiedBy_of_verifyMacWithPreimage h

theorem DhPacket.verifiedBy {p : DhPacket} {h0 : NSData}
    (h : p.verifyMacWithHashChainH0 h0 = .ok u) :
    p.embeddedIntoHandshakePacket.VerifiedBy p.hashChainH1 h0 :=
  HandshakePacket.verifiedBy_of_verifyMacWithPreimage h

end

namespace ZrtpResponder

/-- The Hello is authenticated by the Commit. -/
structure HelloVerified (received : HandshakePacket → Prop) (s : ZrtpResponder)
    (hello : HelloPacket) (commit : CommitPacket) : Prop where
  hello_stored : Stored received (·.parsedAsHello) s.foreignHello hello
  commit_stored : Stored received (·.parsedAsCommitPacket) s.foreignCommit commit
  hello_verified : hello.embeddedIntoHandshakePacket.VerifiedBy hello.hashChainH3 commit.h2

/-- The Commit is authenticated by the DHPart2 that it commits to. -/
structure CommitVerified (received : HandshakePacket → Prop) (s : ZrtpResponder)
    (hello : HelloPacket) (commit : CommitPacket) (dh : DhPacket) : Prop
    extends HelloVerified received s hello commit where
  dh_stored : Stored received (·.parsedAsDh2) s.foreignDH dh
  commit_verified : commit.embeddedIntoHandshakePacket.VerifiedBy commit.h2 dh.hashChainH1
  commitment_eq : commit.dhPart2HelloCommitment = NSData.hashWithSha256
    (dh.embeddedIntoHandshakePacket.dataUsedForAuthentication ++
      s.localHello.embeddedIntoHandshakePacket.dataUsedForAuthentication)

/-- The DHPart2 is authenticated by the Confirm2, which is authenticated with the master secret. -/
structure Authenticated (received : HandshakePacket → Prop) (s : ZrtpResponder)
    (hello : HelloPacket) (commit : CommitPacket) (dh : DhPacket) (masterSecret : MasterSecret)
    (confirm : ConfirmPacket) : Prop extends CommitVerified received s hello commit dh where
  masterSecret_eq : s.masterSecret = some masterSecret
  confirm_received : ∃ p, received p ∧ p.parsedAsConfirm2Authenticated
    masterSecret.initiatorMacKey masterSecret.initiatorZrtpKey = .ok confirm
  dh_verified : dh.embeddedIntoHandshakePacket.VerifiedBy dh.hashChainH1 confirm.hashChainH0

/-- What has been verified when the next packet is awaited. -/
inductive Verified (received : HandshakePacket → Prop) (s : ZrtpResponder) : Prop
  | expectingHello (h : s.packetExpectation = .expectingHello)
  | expectingCommit (h : s.packetExpectation = .expectingCommit) (hello : HelloPacket)
    (stored : Stored received (·.parsedAsHello) s.foreignHello hello)
  | expectingDH (h : s.packetExpectation = .expectingDH) (hello : HelloPacket)
    (commit : CommitPacket) (verified : HelloVerified received s hello commit)
  | expectingConfirm (h : s.packetExpectation = .expectingConfirm) (hello : HelloPacket)
    (commit : CommitPacket) (dh : DhPacket) (verified : CommitVerified received s hello commit dh)
  | finished (h : s.packetExpectation = .expectingNothing) (hello : HelloPacket)
    (commit : CommitPacket) (dh : DhPacket) (masterSecret : MasterSecret) (confirm : ConfirmPacket)
    (authenticated : Authenticated received s hello commit dh masterSecret confirm)

variable {received received' : HandshakePacket → Prop} {s : ZrtpResponder} {hello : HelloPacket}
  {commit : CommitPacket} {dh : DhPacket} {masterSecret : MasterSecret} {confirm : ConfirmPacket}
  {environment : Environment} {newKeys : NewKeys} {packet : HandshakePacket}

theorem HelloVerified.mono (h : HelloVerified received s hello commit)
    (hr : ∀ p, received p → received' p) : HelloVerified received' s hello commit :=
  { h with hello_stored := h.hello_stored.mono hr, commit_stored := h.commit_stored.mono hr }

theorem CommitVerified.mono (h : CommitVerified received s hello commit dh)
    (hr : ∀ p, received p → received' p) : CommitVerified received' s hello commit dh :=
  { h with toHelloVerified := h.toHelloVerified.mono hr, dh_stored := h.dh_stored.mono hr }

theorem Authenticated.mono (h : Authenticated received s hello commit dh masterSecret confirm)
    (hr : ∀ p, received p → received' p) :
    Authenticated received' s hello commit dh masterSecret confirm :=
  { h with
    toCommitVerified := h.toCommitVerified.mono hr
    confirm_received := h.confirm_received.imp fun _ hp => ⟨hr _ hp.1, hp.2⟩ }

theorem Verified.mono (h : Verified received s) (hr : ∀ p, received p → received' p) :
    Verified received' s := by
  cases h with
  | expectingHello h => exact .expectingHello h
  | expectingCommit h hello stored => exact .expectingCommit h hello (stored.mono hr)
  | expectingDH h hello commit verified => exact .expectingDH h hello commit (verified.mono hr)
  | expectingConfirm h hello commit dh verified =>
    exact .expectingConfirm h hello commit dh (verified.mono hr)
  | finished h hello commit dh masterSecret confirm authenticated =>
    exact .finished h hello commit dh masterSecret confirm (authenticated.mono hr)

theorem handleHello_leaves (hexpecting : s.packetExpectation = .expectingHello)
    (hpacket : received packet) : (handleHello packet).Leaves s (Verified received) := by
  simp only [handleHello, Method.ensures_bind, Method.ensures_lift, Method.ensures_modify,
    Method.ensures_pure]
  refine ⟨fun hello hparsed => ?_, fun _ _ => .expectingHello hexpecting⟩
  have hstored : Stored received (·.parsedAsHello) (some hello) hello := ⟨rfl, _, hpacket, hparsed⟩
  exact ⟨fun _ _ => .expectingCommit rfl hello hstored,
    fun _ _ => .expectingCommit rfl hello hstored⟩

theorem handleCommit_leaves (hexpecting : s.packetExpectation = .expectingCommit)
    (hhello : Stored received (·.parsedAsHello) s.foreignHello hello) (hpacket : received packet) :
    (handleCommit newKeys packet).Leaves s (Verified received) := by
  simp only [handleCommit, Method.ensures_bind, Method.ensures_lift, Method.ensures_modify,
    Method.ensures_get, Method.ensures_pure]
  refine ⟨fun commit hparsed => ?_, fun _ _ => .expectingCommit hexpecting hello hhello⟩
  refine ⟨fun _ hverified => ?_, fun _ _ => .expectingCommit hexpecting hello hhello⟩
  refine ⟨fun participant _ => ?_, fun _ _ => .expectingCommit hexpecting hello hhello⟩
  refine ⟨fun localDH _ => ?_, fun _ _ => .expectingCommit hexpecting hello hhello⟩
  exact .expectingDH rfl hello commit
    { hello_stored := hhello
      commit_stored := ⟨rfl, _, hpacket, hparsed⟩
      hello_verified := HelloPacket.verifiedBy (hhello.of_tell hverified) }

theorem handleDH_leaves (hexpecting : s.packetExpectation = .expectingDH)
    (hverified : HelloVerified received s hello commit) (hpacket : received packet) :
    (handleDH packet).Leaves s (Verified received) := by
  have hunverified (dh : DhPacket) : Verified received { s with foreignDH := some dh } :=
    .expectingDH hexpecting hello commit
      ⟨hverified.hello_stored, hverified.commit_stored, hverified.hello_verified⟩
  simp only [handleDH, Method.ensures_bind, Method.ensures_lift, Method.ensures_modify,
    Method.ensures_get, Method.ensures_pure]
  refine ⟨fun dh hparsed => ?_, fun _ _ => .expectingDH hexpecting hello commit hverified⟩
  refine ⟨fun _ hmac => ?_, fun _ _ => hunverified dh⟩
  refine ⟨fun _ hcommitment => ?_, fun _ _ => hunverified dh⟩
  -- until the master secret is there, an exception leaves the DHPart2 as it is
  refine ⟨fun participant _ => ?_, fun _ _ => hunverified dh⟩
  refine ⟨fun dhResult _ => ?_, fun _ _ => hunverified dh⟩
  refine ⟨fun foreignHello _ => ?_, fun _ _ => hunverified dh⟩
  refine ⟨fun foreignCommit _ => ?_, fun _ _ => hunverified dh⟩
  refine ⟨fun localDH _ => ?_, fun _ _ => hunverified dh⟩
  refine ⟨fun masterSecret _ => ?_, fun _ _ => hunverified dh⟩
  have hconfirmable : CommitVerified received
      { s with foreignDH := some dh, masterSecret := some masterSecret,
               packetExpectation := .expectingConfirm } hello commit dh :=
    { hello_stored := hverified.hello_stored
      commit_stored := hverified.commit_stored
      hello_verified := hverified.hello_verified
      dh_stored := ⟨rfl, _, hpacket, hparsed⟩
      commit_verified := CommitPacket.verifiedBy (hverified.commit_stored.of_tell hmac)
      commitment_eq := CommitPacket.verifyCommitmentAgainstHello_eq_ok
        (hverified.commit_stored.of_tell hcommitment) }
  exact ⟨fun _ _ => .expectingConfirm rfl hello commit dh hconfirmable,
    fun _ _ => .expectingConfirm rfl hello commit dh hconfirmable⟩

theorem handleConfirmTwo_leaves (hexpecting : s.packetExpectation = .expectingConfirm)
    (hverified : CommitVerified received s hello commit dh) (hpacket : received packet) :
    (handleConfirmTwo environment packet).Leaves s (Verified received) := by
  simp only [handleConfirmTwo, Method.ensures_bind, Method.ensures_lift, Method.ensures_modify,
    Method.ensures_get, Method.ensures_pure]
  have hunchanged : Verified received s := .expectingConfirm hexpecting hello commit dh hverified
  refine ⟨fun masterSecret hmasterSecret => ?_, fun _ _ => hunchanged⟩
  refine ⟨fun confirm hparsed => ?_, fun _ _ => hunchanged⟩
  refine ⟨fun _ hmac => ?_, fun _ _ => hunchanged⟩
  have hfinished : Authenticated received { s with packetExpectation := .expectingNothing } hello
      commit dh masterSecret confirm :=
    { hello_stored := hverified.hello_stored
      commit_stored := hverified.commit_stored
      hello_verified := hverified.hello_verified
      dh_stored := hverified.dh_stored
      commit_verified := hverified.commit_verified
      commitment_eq := hverified.commitment_eq
      masterSecret_eq := owsRequireNotNil_eq_ok.mp hmasterSecret
      confirm_received := ⟨_, hpacket, hparsed⟩
      dh_verified := DhPacket.verifiedBy (hverified.dh_stored.of_tell hmac) }
  exact ⟨fun _ _ => .finished rfl hello commit dh masterSecret confirm hfinished,
    fun _ _ => .finished rfl hello commit dh masterSecret confirm hfinished⟩

theorem handleExpected_leaves (hverified : Verified received s) (hpacket : received packet) :
    (handleExpected environment newKeys packet).Leaves s (Verified received) := by
  rw [Method.Leaves, handleExpected, Method.ensures_bind, Method.ensures_get]
  cases hverified with
  | expectingHello h => simpa only [h] using handleHello_leaves h hpacket
  | expectingCommit h hello stored => simpa only [h] using handleCommit_leaves h stored hpacket
  | expectingDH h hello commit verified => simpa only [h] using handleDH_leaves h verified hpacket
  | expectingConfirm h hello commit dh verified =>
    simpa only [h] using handleConfirmTwo_leaves h verified hpacket
  | finished h hello commit dh masterSecret confirm authenticated =>
    simpa only [h, Method.ensures_pure] using
      .finished h hello commit dh masterSecret confirm authenticated

theorem Verified.withCallController (h : Verified received s)
    (callController : List CallControllerMessage) :
    Verified received { s with callController := callController } := by
  cases h with
  | expectingHello h => exact .expectingHello h
  | expectingCommit h hello stored => exact .expectingCommit h hello stored
  | expectingDH h hello commit verified => exact .expectingDH h hello commit { verified with }
  | expectingConfirm h hello commit dh verified =>
    exact .expectingConfirm h hello commit dh { verified with }
  | finished h hello commit dh masterSecret confirm authenticated =>
    exact .finished h hello commit dh masterSecret confirm { authenticated with }

theorem handlePacket_leaves (hverified : Verified received s) (hpacket : received packet) :
    (handlePacket environment newKeys packet).Leaves s (Verified received) := by
  rw [Method.Leaves, handlePacket, Method.ensures_tryCatch]
  refine (handleExpected_leaves hverified hpacket).mono (fun _ _ h => h) fun exception t h => ?_
  cases exception with
  | securityFailure => exact h.withCallController _
  | operationFailed description => exact h
  | badArgument => exact h
  | badState => exact h
  | nsRangeException => exact h

end ZrtpResponder
end SignalIOS.Zrtp
