import SignalIOS.Zrtp.HandshakeAgreement

/-! How often a manager sends its current packet, and after which delays. -/
namespace SignalIOS.Zrtp
open SignalIOS.Lib SignalIOS.Rtp

/-- A manager, and what is counted of its current packet: how often it has been sent, and the delays
in between, the last first. -/
structure Transmissions where
  manager : ZrtpManager
  transmitCount : ℕ
  delays : List ℕ

namespace Transmissions

/-- Whether the event can happen. Any packet may arrive. -/
def canHappen (manager : ZrtpManager) : ManagerEvent → Bool
  | .handshakePacket _ _ | .error _ _ _ _ => !manager.cancelTokenSourceCancelled
  | .scheduledRun => manager.currentRetransmit.isSome
  | .terminate => true

/-- A packet that is sent when a delay has passed is the current packet once more. -/
def count (s : Transmissions) (e : ManagerEvent) (manager : ZrtpManager) : Transmissions :=
  if manager.handshakeSocket.length = s.manager.handshakeSocket.length then { s with manager }
  else
    match e, s.manager.currentRetransmit with
    | .scheduledRun, some (.handleRetransmit delay) =>
      ⟨manager, s.transmitCount + 1, delay :: s.delays⟩
    | _, _ => ⟨manager, 1, []⟩

def start (role : ZrtpRole) : Transmissions :=
  let manager := (ZrtpManager.asyncPerformHandshake.run.run { zrtpRole := role }).2
  ⟨manager, manager.handshakeSocket.length, []⟩

variable [CryptoTools]

/-- The runs of a manager, whatever its peer sends. -/
def machine (environment : Environment) (role : ZrtpRole) : Machine Transmissions ManagerEvent where
  init := start role
  step s e :=
    if canHappen s.manager e then
      some (s.count e ((e.handle environment).run.run s.manager).2)
    else none

omit [CryptoTools]

/-- What the constants are for: the packet is not sent too often, and every delay is the one before
it times the factor, up to the maximum. -/
structure KeepsToSchedule (s : Transmissions) : Prop where
  transmitCount : s.transmitCount ≤ maxRetransmitCount + 2
  delays : s.delays.IsChain fun delay previous => previous ≤ delay ∧
    delay = min (retransmitIntervalGrowFactor * previous) maxRetransmitIntervalMilliseconds

/-- The delay has passed, and the current packet is sent again. -/
def Fires (s : Transmissions) (e : ManagerEvent) : Prop :=
  e = .scheduledRun ∧ (∃ delay, s.manager.currentRetransmit = some (.handleRetransmit delay)) ∧
    s.manager.done = false

/-- The current packet is not sent for the third time. -/
def NoThirdTransmission (s : Transmissions) (e : ManagerEvent) : Prop :=
  s.Fires e → s.transmitCount ≤ 1

end Transmissions

namespace ZrtpManager

/-- What has been sent, and what is going to be sent next, and when. -/
def sending (s : ZrtpManager) :
    List HandshakePacket × Option ScheduledRun × Option HandshakePacket :=
  (s.handshakeSocket, s.currentRetransmit, s.currentPacketToRetransmit)

theorem fixes_trySetFailure (failure : HandshakeFailure) :
    Method.Fixes sending (trySetFailure failure) := .modify fun s => by split <;> rfl

theorem fixes_completeHandshake : Method.Fixes sending completeHandshake := by
  refine .bind (.modify fun _ => rfl) fun _ => .bind .get fun _ => .bind (.lift _) fun _ => ?_
  refine .bind (.lift _) fun _ => .bind (.lift _) fun _ => .modify fun s => ?_
  split <;> rfl

/-- From `s` to `t` nothing has been sent. What was scheduled may have been cancelled. -/
def Quiet (s t : ZrtpManager) : Prop :=
  t.handshakeSocket = s.handshakeSocket ∧
    (t.currentRetransmit = none ∨ t.sending = s.sending)

/-- From `s` to `t` a packet has been sent, and is going to be sent again. -/
def Sent (s t : ZrtpManager) : Prop :=
  ∃ packet, t.sending = (s.handshakeSocket ++ [packet],
    some (.handleRetransmit minRetransmitIntervalMilliseconds), some packet)

variable {s t : ZrtpManager}

theorem quiet_of_eq (h : t.sending = s.sending) : Quiet s t :=
  ⟨congrArg Prod.fst h, .inr h⟩

theorem setAndSendPacketToTransmit_sent (packet : HandshakePacket) (hdone : s.done = false) :
    (setAndSendPacketToTransmit packet).Ensures s (fun _ t => Sent s t) fun _ _ => False := by
  simp only [setAndSendPacketToTransmit, transmitCurrentHandshakePacket, Method.ensures_bind,
    Method.ensures_modify, Method.ensures_get, hdone, Bool.false_eq_true, if_false,
    Method.ensures_lift]
  refine ⟨fun _ _ => ⟨packet, rfl⟩, fun _ he => ?_⟩
  cases he

/-- The delay is always the shortest one, because the count starts anew. -/
theorem run_runScheduled_handleRetransmit {delay : ℕ} {packet : HandshakePacket}
    (hscheduled : s.currentRetransmit = some (.handleRetransmit delay)) (hdone : s.done = false)
    (hpacket : s.currentPacketToRetransmit = some packet) :
    runScheduled.run.run s = (.ok (), { s with
      currentPacketTransmitCount := 1
      currentRetransmit := some (.handleRetransmit minRetransmitIntervalMilliseconds)
      handshakeSocket := s.handshakeSocket ++ [packet] }) := by
  have hcount : ¬ 0 > maxRetransmitCount := Nat.not_lt_zero _
  have hsome : requireState ((some packet).isSome = true) = .ok () := rfl
  simp only [runScheduled, handleRetransmit, transmitCurrentHandshakePacket, Method.run_bind,
    Method.run_modify, Method.run_get, hscheduled, hdone, Bool.false_eq_true, if_false, hcount,
    hpacket, hsome, Method.run_lift]
  rfl

theorem Sent.of_fixes {x : ManagerMethod Unit} (hx : Method.Fixes sending x) (h : Sent s t) :
    x.Leaves t fun u => Quiet s u ∨ Sent s u := by
  obtain ⟨packet, hpacket⟩ := h
  exact (hx t).mono (fun _ u hu => .inr ⟨packet, hu.trans hpacket⟩)
    fun _ u hu => .inr ⟨packet, hu.trans hpacket⟩

theorem Quiet.of_fixes {x : ManagerMethod Unit} (hx : Method.Fixes sending x)
    (h : t.sending = s.sending) : x.Leaves t fun u => Quiet s u ∨ Sent s u :=
  (hx t).mono (fun _ _ hu => .inl (quiet_of_eq (hu.trans h)))
    fun _ _ hu => .inl (quiet_of_eq (hu.trans h))

theorem terminate_sends (s : ZrtpManager) :
    terminate.Leaves s fun t => Quiet s t ∨ Sent s t := .inl ⟨rfl, .inl rfl⟩

/-- Of what is scheduled, only a retransmission sends, and only where the manager is not done. -/
theorem runScheduled_quiet (s : ZrtpManager)
    (hdone : ∀ delay, s.currentRetransmit = some (.handleRetransmit delay) → s.done = true) :
    runScheduled.Leaves s (Quiet s) := by
  unfold runScheduled Method.Leaves
  simp only [Method.ensures_bind, Method.ensures_get, Method.ensures_modify]
  cases hscheduled : s.currentRetransmit with
  | none => exact ⟨rfl, .inl rfl⟩
  | some scheduled =>
    cases scheduled with
    | handleRetransmit delay =>
      have hdone' := hdone delay hscheduled
      simp only [handleRetransmit, Method.ensures_bind, Method.ensures_get, hdone', if_true]
      exact ⟨rfl, .inl rfl⟩
    | timeoutFail delay =>
      simp only [timeoutFail, terminateWithReason, Method.ensures_bind, Method.ensures_modify]
      refine (fixes_trySetFailure _ _).mono (fun _ u hu => ?_) fun _ u hu => ?_
      · exact ⟨congrArg Prod.fst hu, .inl (congrArg (·.2.1) hu)⟩
      · exact ⟨congrArg Prod.fst hu, .inl (congrArg (·.2.1) hu)⟩

variable [CryptoTools]

/-- What the role answers is sent once, and after it nothing else. -/
theorem handleHandshakePacket_sends (environment : Environment) (newKeys : NewKeys)
    (packet : HandshakePacket) (s : ZrtpManager) :
    (handleHandshakePacket environment newKeys packet).Leaves s fun t => Quiet s t ∨ Sent s t := by
  unfold handleHandshakePacket Method.Leaves
  rw [Method.ensures_bind, Method.ensures_get]
  cases hdone : s.done with
  | true => exact .inl (quiet_of_eq rfl)
  | false =>
    simp only [Bool.false_eq_true, if_false, Method.ensures_bind, Method.ensures_get,
      Method.ensures_modify, Method.ensures_lift]
    obtain ⟨response, zrtpRole⟩ := s.zrtpRole.handlePacket environment newKeys packet
    have hcomplete : Method.Fixes sending (if zrtpRole.hasHandshakeFinishedSuccessfully = true then
        completeHandshake else pure ()) := .ite fixes_completeHandshake (.pure _)
    refine ⟨fun answer _ => ?_, fun _ _ => .inl (quiet_of_eq rfl)⟩
    cases answer with
    | none => exact Quiet.of_fixes hcomplete rfl
    | some responsePacket =>
      dsimp only
      rw [Method.ensures_bind]
      have hsend := setAndSendPacketToTransmit_sent (s := { s with zrtpRole }) responsePacket hdone
      refine hsend.mono (fun _ u hu => ?_) fun _ _ => False.elim
      exact Sent.of_fixes (s := s) hcomplete hu

theorem handleError_sends (environment : Environment) (newKeys : NewKeys) (error : Exception)
    (relatedInfo : Option RtpPacket) (causedTermination : Bool) (s : ZrtpManager) :
    (handleError environment newKeys error relatedInfo causedTermination).Leaves s
      fun t => Quiet s t ∨ Sent s t := by
  unfold handleError Method.Leaves
  cases causedTermination with
  | true =>
    rw [if_pos rfl]
    simp only [Method.ensures_bind, Method.ensures_pure, terminate, Method.ensures_modify]
    refine (fixes_trySetFailure _ _).mono (fun _ u hu => ?_) fun _ u hu => ?_
    · exact .inl ⟨congrArg Prod.fst hu, .inl (congrArg (·.2.1) hu)⟩
    · exact .inl ⟨congrArg Prod.fst hu, .inl (congrArg (·.2.1) hu)⟩
  | false =>
    simp only [Bool.false_eq_true, if_false, Method.ensures_bind, Method.ensures_get,
      Method.ensures_lift]
    refine ⟨fun implying _ => ?_, fun _ _ => .inl (quiet_of_eq rfl)⟩
    split
    · simp only [Method.ensures_bind, Method.ensures_lift]
      refine ⟨fun confirmAck _ => ?_, fun _ _ => .inl (quiet_of_eq rfl)⟩
      exact handleHandshakePacket_sends environment newKeys _ s
    · exact .inl (quiet_of_eq rfl)

end ZrtpManager

namespace Transmissions

/-- All delays are the shortest one. -/
structure Counted (s : Transmissions) : Prop where
  scheduled : ∀ delay, s.manager.currentRetransmit = some (.handleRetransmit delay) →
    delay = minRetransmitIntervalMilliseconds ∧ s.manager.currentPacketToRetransmit.isSome ∧
      1 ≤ s.transmitCount
  delays : s.delays = List.replicate (s.transmitCount - 1) minRetransmitIntervalMilliseconds

variable {s : Transmissions} {e : ManagerEvent} {manager : ZrtpManager}

theorem manager_count (s : Transmissions) (e : ManagerEvent) (manager : ZrtpManager) :
    (s.count e manager).manager = manager := by
  unfold count
  split
  · rfl
  · split <;> rfl

theorem Counted.quiet (h : s.Counted) (hquiet : s.manager.Quiet manager) :
    s.count e manager = { s with manager } ∧ (s.count e manager).Counted := by
  have hcount : s.count e manager = { s with manager } := if_pos (congrArg List.length hquiet.1)
  refine ⟨hcount, ?_⟩
  rw [hcount]
  refine ⟨fun delay hdelay => ?_, h.delays⟩
  rcases hquiet.2 with hnone | hsame
  · cases hnone.symm.trans hdelay
  · have hscheduled : manager.currentRetransmit = s.manager.currentRetransmit :=
      congrArg (·.2.1) hsame
    have hcurrent : manager.currentPacketToRetransmit = s.manager.currentPacketToRetransmit :=
      congrArg (·.2.2) hsame
    rw [hcurrent]
    exact h.scheduled delay (hscheduled.symm.trans hdelay)

theorem scheduled_of_sent (hsent : s.manager.Sent manager) {delay : ℕ}
    (hdelay : manager.currentRetransmit = some (.handleRetransmit delay)) :
    delay = minRetransmitIntervalMilliseconds ∧
      manager.currentPacketToRetransmit.isSome := by
  obtain ⟨packet, hpacket⟩ := hsent
  have hscheduled : manager.currentRetransmit =
      some (.handleRetransmit minRetransmitIntervalMilliseconds) := congrArg (·.2.1) hpacket
  have hcurrent : manager.currentPacketToRetransmit = some packet := congrArg (·.2.2) hpacket
  rw [hscheduled, Option.some.injEq, ScheduledRun.handleRetransmit.injEq] at hdelay
  exact ⟨hdelay.symm, hcurrent ▸ rfl⟩

theorem length_of_sent (hsent : s.manager.Sent manager) :
    ¬ manager.handshakeSocket.length = s.manager.handshakeSocket.length := by
  obtain ⟨packet, hpacket⟩ := hsent
  have hsocket : manager.handshakeSocket = s.manager.handshakeSocket ++ [packet] :=
    congrArg Prod.fst hpacket
  rw [hsocket, List.length_append, List.length_singleton]
  omega

/-- A new packet is sent for the first time. -/
theorem counted_of_sent (hsent : s.manager.Sent manager) (he : e ≠ .scheduledRun) :
    (s.count e manager).transmitCount = 1 ∧ (s.count e manager).Counted := by
  have hcount : s.count e manager = ⟨manager, 1, []⟩ := by
    rw [count, if_neg (length_of_sent hsent)]
    exact fun _ hscheduled => absurd hscheduled he
  rw [hcount]
  refine ⟨rfl, fun delay hdelay => ?_, rfl⟩
  obtain ⟨hvalue, hcurrent⟩ := scheduled_of_sent hsent hdelay
  exact ⟨hvalue, hcurrent, Nat.le_refl 1⟩

/-- The current packet is sent once more. -/
theorem Counted.again (h : s.Counted) (hsent : s.manager.Sent manager) {delay : ℕ}
    (hdelay : s.manager.currentRetransmit = some (.handleRetransmit delay)) :
    (s.count .scheduledRun manager).transmitCount = s.transmitCount + 1 ∧
      (s.count .scheduledRun manager).Counted := by
  obtain ⟨hvalue, -, hpos⟩ := h.scheduled delay hdelay
  have hcount : s.count .scheduledRun manager =
      ⟨manager, s.transmitCount + 1, delay :: s.delays⟩ := by
    simp only [count, if_neg (length_of_sent hsent), hdelay]
  rw [hcount]
  refine ⟨rfl, fun delay' hdelay' => ?_, ?_⟩
  · obtain ⟨hvalue', hcurrent⟩ := scheduled_of_sent hsent hdelay'
    exact ⟨hvalue', hcurrent, Nat.le_add_left 1 _⟩
  · have hsucc : s.transmitCount + 1 - 1 = s.transmitCount - 1 + 1 := by omega
    show delay :: s.delays = List.replicate (s.transmitCount + 1 - 1) _
    rw [hvalue, h.delays, hsucc, List.replicate_succ]

theorem Counted.of_sends (h : s.Counted) (he : e ≠ .scheduledRun)
    (hsends : s.manager.Quiet manager ∨ s.manager.Sent manager) :
    (s.count e manager).Counted ∧ ((s.count e manager).transmitCount = s.transmitCount ∨
      (s.count e manager).transmitCount = 1) := by
  rcases hsends with hquiet | hsent
  · obtain ⟨hcount, hcounted⟩ := h.quiet (e := e) hquiet
    exact ⟨hcounted, .inl (hcount ▸ rfl)⟩
  · obtain ⟨hcount, hcounted⟩ := counted_of_sent hsent he
    exact ⟨hcounted, .inr hcount⟩

/-- The delays of three transmissions are the same, and do not grow. -/
theorem Counted.keepsToSchedule_iff_few (h : s.Counted) :
    s.KeepsToSchedule ↔ s.transmitCount ≤ 2 := by
  constructor
  · intro hkeeps
    by_contra hmany
    obtain ⟨n, hn⟩ : ∃ n, s.transmitCount - 1 = n + 2 := ⟨s.transmitCount - 3, by omega⟩
    have hchain := hkeeps.delays
    rw [h.delays, hn, List.replicate_succ, List.replicate_succ, List.isChain_cons_cons] at hchain
    exact absurd hchain.1.2 (by decide)
  · intro hfew
    refine ⟨?_, ?_⟩
    · have hbound : maxRetransmitCount + 2 = 47 := rfl
      omega
    · rw [h.delays]
      have hlength : s.transmitCount - 1 = 0 ∨ s.transmitCount - 1 = 1 := by omega
      rcases hlength with hzero | hone
      · rw [hzero]
        exact .nil
      · rw [hone]
        exact .singleton _

/-- A role begins with a packet, or waits for one. -/
theorem asyncPerformHandshake_sends (role : ZrtpRole) :
    ZrtpManager.asyncPerformHandshake.Leaves { zrtpRole := role } fun t =>
      (t.handshakeSocket = [] ∧ ∀ delay, t.currentRetransmit ≠ some (.handleRetransmit delay)) ∨
        ZrtpManager.Sent { zrtpRole := role } t := by
  unfold ZrtpManager.asyncPerformHandshake Method.Leaves
  simp only [Method.ensures_bind, Method.ensures_get, Method.ensures_modify, Method.ensures_lift]
  refine ⟨fun answer _ => ?_, fun _ _ => .inl ⟨trivial, fun delay hdelay => by cases hdelay⟩⟩
  cases answer with
  | none => exact .inl ⟨rfl, fun delay hdelay => by cases hdelay⟩
  | some packet =>
    have hsent := ZrtpManager.setAndSendPacketToTransmit_sent
      (s := { zrtpRole := role.initialPacket.2 }) packet rfl
    exact hsent.mono (fun _ _ ht => .inr ht) fun _ _ => False.elim

theorem counted_start (role : ZrtpRole) :
    (start role).Counted ∧ (start role).transmitCount ≤ 1 := by
  rcases (asyncPerformHandshake_sends role).run with ⟨hsocket, hscheduled⟩ | hsent
  · have hcount : (start role).transmitCount = 0 := congrArg List.length hsocket
    refine ⟨⟨fun delay hdelay => absurd hdelay (hscheduled delay), ?_⟩, by omega⟩
    rw [hcount]
    rfl
  · obtain ⟨packet, hpacket⟩ := hsent
    have hcount : (start role).transmitCount = 1 :=
      congrArg (fun p => List.length (Prod.fst p)) hpacket
    refine ⟨⟨fun delay hdelay => ?_, ?_⟩, by omega⟩
    · obtain ⟨hvalue, hcurrent⟩ := scheduled_of_sent
        (s := ⟨{ zrtpRole := role }, 0, []⟩) ⟨packet, hpacket⟩ hdelay
      exact ⟨hvalue, hcurrent, Nat.le_of_eq hcount.symm⟩
    · rw [hcount]
      rfl

section Runs
variable [CryptoTools]

theorem Counted.step_of_fires (h : s.Counted) (environment : Environment) (hfires : s.Fires e) :
    (s.count e ((e.handle environment).run.run s.manager).2).Counted ∧
      (s.count e ((e.handle environment).run.run s.manager).2).transmitCount =
        s.transmitCount + 1 := by
  obtain ⟨rfl, ⟨delay, hdelay⟩, hdone⟩ := hfires
  obtain ⟨-, hcurrent, -⟩ := h.scheduled delay hdelay
  obtain ⟨packet, hpacket⟩ := Option.isSome_iff_exists.mp hcurrent
  have hrun := ZrtpManager.run_runScheduled_handleRetransmit hdelay hdone hpacket
  have hsent : s.manager.Sent (ZrtpManager.runScheduled.run.run s.manager).2 := by
    rw [hrun]
    exact ⟨packet, by rw [ZrtpManager.sending, hpacket]⟩
  obtain ⟨hcount, hcounted⟩ := h.again hsent hdelay
  exact ⟨hcounted, hcount⟩

/-- Where the current packet is not sent again, its count stays as it is or starts anew. -/
theorem Counted.step_of_not_fires (h : s.Counted) (environment : Environment)
    (hfires : ¬ s.Fires e) :
    (s.count e ((e.handle environment).run.run s.manager).2).Counted ∧
      ((s.count e ((e.handle environment).run.run s.manager).2).transmitCount = s.transmitCount ∨
        (s.count e ((e.handle environment).run.run s.manager).2).transmitCount = 1) := by
  cases e with
  | handshakePacket newKeys packet =>
    exact h.of_sends nofun (ZrtpManager.handleHandshakePacket_sends _ _ _ _).run
  | error newKeys exception relatedInfo causedTermination =>
    exact h.of_sends nofun (ZrtpManager.handleError_sends _ _ _ _ _ _).run
  | terminate => exact h.of_sends nofun (ZrtpManager.terminate_sends _).run
  | scheduledRun =>
    have hdone : ∀ delay, s.manager.currentRetransmit = some (.handleRetransmit delay) →
        s.manager.done = true := by
      intro delay hdelay
      by_contra hlive
      exact hfires ⟨rfl, ⟨delay, hdelay⟩, Bool.eq_false_iff.mpr hlive⟩
    obtain ⟨hcount, hcounted⟩ := h.quiet (e := .scheduledRun)
      (ZrtpManager.runScheduled_quiet s.manager hdone).run
    exact ⟨hcounted, .inl (hcount ▸ rfl)⟩

theorem machine_step {environment : Environment} {role : ZrtpRole} {t : Transmissions}
    (h : (machine environment role).step s e = some t) :
    t = s.count e ((e.handle environment).run.run s.manager).2 := by
  have h : (if canHappen s.manager e then
      some (s.count e ((e.handle environment).run.run s.manager).2) else none) = some t := h
  split at h
  · exact (Option.some.inj h).symm
  · cases h

theorem counted_of_run {environment : Environment} {role : ZrtpRole}
    {tr : History Transmissions ManagerEvent} (h : (machine environment role).Run tr) :
    ((machine environment role).last tr).Counted := by
  refine h.state_invariant (counted_start role).1 fun s e t hs hstep => ?_
  rw [machine_step hstep]
  by_cases hfires : s.Fires e
  · exact (hs.step_of_fires environment hfires).1
  · exact (hs.step_of_not_fires environment hfires).1

/-- Along a run the manager keeps to its schedule exactly as long as it sends no packet for the
third time: the delay does not grow, and nothing is counted that would stop it. -/
theorem keepsToSchedule_iff (environment : Environment) (role : ZrtpRole)
    {tr : History Transmissions ManagerEvent} (h : (machine environment role).Run tr) :
    Machine.Always (fun tr => ((machine environment role).last tr).KeepsToSchedule) tr ↔
      Machine.Guarded (fun tr => ((machine environment role).last tr).NoThirdTransmission) tr := by
  refine h.always_iff_guarded ?_ fun tr e t hrun hkeeps hstep => ?_
  · obtain ⟨hcounted, hcount⟩ := counted_start role
    exact hcounted.keepsToSchedule_iff_few.mpr (by omega)
  · have hcounted := counted_of_run hrun
    have hfew := hcounted.keepsToSchedule_iff_few.mp hkeeps
    have ht : ((machine environment role).last ((e, t) :: tr)) =
        ((machine environment role).last tr).count e
          ((e.handle environment).run.run ((machine environment role).last tr).manager).2 :=
      machine_step hstep
    by_cases hfires : ((machine environment role).last tr).Fires e
    · obtain ⟨hcounted', hcount⟩ := hcounted.step_of_fires environment hfires
      rw [ht, hcounted'.keepsToSchedule_iff_few, hcount]
      exact ⟨fun hle _ => by omega, fun hguard => Nat.succ_le_succ (hguard hfires)⟩
    · obtain ⟨hcounted', hcount⟩ := hcounted.step_of_not_fires environment hfires
      rw [ht, hcounted'.keepsToSchedule_iff_few]
      exact ⟨fun _ hfires' => absurd hfires' hfires, fun _ => by omega⟩

/-- A role that begins with a packet sends it again as often as nothing else happens. -/
theorem exec_scheduledRuns (environment : Environment) (role : ZrtpRole) {packet : HandshakePacket}
    (hinitial : role.initialPacket.1 = .ok (some packet)) (n : ℕ) :
    ∃ tr, (machine environment role).exec (List.replicate n .scheduledRun) = some tr ∧
      let t := (machine environment role).last tr
      t.transmitCount = n + 1 ∧ t.manager.done = false ∧
        t.manager.futureHandshakeResult = none ∧
        t.manager.currentPacketToRetransmit = some packet ∧
        t.manager.currentRetransmit =
          some (.handleRetransmit minRetransmitIntervalMilliseconds) := by
  induction n with
  | zero =>
    have hrun : (ZrtpManager.asyncPerformHandshake.run.run { zrtpRole := role }).2 =
        { zrtpRole := role.initialPacket.2
          currentPacketTransmitCount := 1
          handshakeSocket := [packet]
          currentPacketToRetransmit := some packet
          currentRetransmit :=
            some (.handleRetransmit minRetransmitIntervalMilliseconds) } := by
      simp only [ZrtpManager.asyncPerformHandshake, Method.run_bind, Method.run_get,
        Method.run_modify, hinitial, Method.run_lift]
      rfl
    refine ⟨[], rfl, ?_⟩
    have hstart : (machine environment role).last [] = start role := rfl
    rw [hstart, start, hrun]
    exact ⟨rfl, rfl, rfl, rfl, rfl⟩
  | succ n ih =>
    obtain ⟨tr, htr, hcount, hdone, hresult, hpacket, hscheduled⟩ := ih
    have hrun := ZrtpManager.run_runScheduled_handleRetransmit hscheduled hdone hpacket
    have hfires : ((machine environment role).last tr).Fires .scheduledRun :=
      ⟨rfl, ⟨_, hscheduled⟩, hdone⟩
    have hnext := ((counted_of_run (Machine.run_of_exec htr)).step_of_fires environment hfires).2
    have hstep : (machine environment role).step ((machine environment role).last tr)
        .scheduledRun = some (((machine environment role).last tr).count .scheduledRun
          (ZrtpManager.runScheduled.run.run ((machine environment role).last tr).manager).2) :=
      if_pos (by rw [canHappen, hscheduled]; rfl)
    rw [List.replicate_succ', Machine.exec_append, htr, Option.bind_some, hstep]
    refine ⟨_, rfl, ?_⟩
    rw [Machine.last_cons]
    refine ⟨hnext.trans (congrArg (· + 1) hcount), ?_⟩
    rw [manager_count, hrun]
    exact ⟨hdone, hresult, hpacket, rfl⟩

end Runs

/-! A responder that nobody answers. -/

section Sample

local instance retransmissionCryptoTools : CryptoTools := sampleCryptoTools

/-- It has sent its Hello 48 times, after the same delay each time, and goes on. -/
theorem not_keepsToSchedule : ∃ responder tr, sampleResponder = .ok responder ∧
    (machine sampleEnvironment (.responder responder)).exec (List.replicate 47 .scheduledRun) =
      some tr ∧
    let t := (machine sampleEnvironment (.responder responder)).last tr
    t.transmitCount = 48 ∧ t.delays = List.replicate 47 150 ∧ t.manager.done = false ∧
      t.manager.futureHandshakeResult = none ∧ ¬ t.KeepsToSchedule := by
  have hsome : sampleResponder.toOption.isSome = true := by decide +kernel
  obtain ⟨responder, hresponder⟩ := Option.isSome_iff_exists.mp hsome
  obtain ⟨tr, htr, hcount, hdone, hresult, -, -⟩ :=
    exec_scheduledRuns sampleEnvironment (.responder responder) rfl 47
  have hcounted := counted_of_run (Machine.run_of_exec htr)
  refine ⟨responder, tr, Throws.eq_ok_of_toOption hresponder, htr, hcount, ?_, hdone, hresult, ?_⟩
  · rw [hcounted.delays, hcount]
    rfl
  · rw [hcounted.keepsToSchedule_iff_few, hcount]
    decide

/-- It sends its Hello a second time. -/
theorem keepsToSchedule_twice : ∃ responder tr, sampleResponder = .ok responder ∧
    (machine sampleEnvironment (.responder responder)).exec [.scheduledRun] = some tr ∧
    Machine.Always (fun tr =>
      ((machine sampleEnvironment (.responder responder)).last tr).KeepsToSchedule) tr := by
  have hsome : sampleResponder.toOption.isSome = true := by decide +kernel
  obtain ⟨responder, hresponder⟩ := Option.isSome_iff_exists.mp hsome
  obtain ⟨tr, htr, -⟩ := exec_scheduledRuns sampleEnvironment (.responder responder) rfl 1
  refine ⟨responder, tr, Throws.eq_ok_of_toOption hresponder, htr, ?_⟩
  rw [keepsToSchedule_iff _ _ (Machine.run_of_exec htr)]
  have hevents : tr.map Prod.fst = [.scheduledRun] := Machine.map_fst_of_exec htr
  obtain ⟨p, rfl, -⟩ := List.map_eq_singleton_iff.mp hevents
  exact ⟨fun _ => (counted_start _).2, trivial⟩

end Sample

end Transmissions
end SignalIOS.Zrtp
