import SignalIOS.Audio.RemoteIOAudio

/-! When the bytes that are counted are the bytes in the playback queue. -/
namespace SignalIOS.Audio
open SignalIOS.Lib

namespace Playback

/-- No notification is outstanding. -/
def Quiet (p : Playback) : Prop := p.posted = [] ∧ p.refill = none

structure Accounted (p : Playback) : Prop where
  balanced : p.Quiet → p.bytesInPlaybackBuffer = p.playbackQueue.enqueuedLength
  bounded : p.bytesInPlaybackBuffer ≤ p.everEnqueued

/-- A notification of a starved callback finds fewer bytes than were requested, and when it is
dropped after termination, it is one of a starved callback. -/
def FirstFits (p : Playback) : List PlaybackNotification → Prop
  | [] => True
  | n :: _ =>
    if p.state = .terminated then n.consumedByteCount = 0
    else n.availableByteCount < n.requestedByteCount →
      p.bytesInPlaybackBuffer < n.requestedByteCount

/-- The callback dequeues where the low 32 bits of the capacity are not 0, and the queue is
populated while its count has 32 bits. -/
def Event.Fits (p : Playback) : Event → Prop
  | .playbackCallback inNumberSamples =>
    (inNumberSamples * sampleSizeInBytes).toNat ≤ p.playbackQueue.enqueuedLength →
      0 < p.playbackQueue.capacity % 2 ^ 32
  | .beginNotification => p.FirstFits p.posted
  | .decodeFrame (some data) => p.playbackQueue.enqueuedLength + data.length < 2 ^ 32
  | _ => True

instance (p : Playback) : (ns : List PlaybackNotification) → Decidable (p.FirstFits ns)
  | [] => .isTrue trivial
  | n :: _ => inferInstanceAs (Decidable (if p.state = .terminated then n.consumedByteCount = 0
      else n.availableByteCount < n.requestedByteCount →
        p.bytesInPlaybackBuffer < n.requestedByteCount))

instance (p : Playback) : (e : Event) → Decidable (e.Fits p)
  | .start => .isTrue trivial
  | .playbackCallback inNumberSamples =>
    inferInstanceAs (Decidable ((inNumberSamples * sampleSizeInBytes).toNat ≤
      p.playbackQueue.enqueuedLength → 0 < p.playbackQueue.capacity % 2 ^ 32))
  | .beginNotification => inferInstanceAs (Decidable (p.FirstFits p.posted))
  | .decodeFrame (some data) =>
    inferInstanceAs (Decidable (p.playbackQueue.enqueuedLength + data.length < 2 ^ 32))
  | .decodeFrame none => .isTrue trivial
  | .countFrame => .isTrue trivial
  | .endLoop => .isTrue trivial
  | .cancel => .isTrue trivial

/-- The bytes that were taken from the queue, and are not subtracted yet. -/
def unsubtracted : List PlaybackNotification → ℕ
  | [] => 0
  | n :: ns => n.consumedByteCount + unsubtracted ns

/-- The bytes that the queue was populated with, and are not added yet. -/
def uncounted (p : Playback) : ℕ :=
  match p.refill with
  | some ⟨_, some length⟩ => length
  | _ => 0

/-- The books are in balance while notifications are outstanding. -/
structure Balanced (p : Playback) : Prop where
  wellFormed : p.playbackQueue.WellFormed
  bytes : p.bytesInPlaybackBuffer + p.uncounted =
    p.playbackQueue.enqueuedLength + unsubtracted p.posted

variable {p q : Playback} {e : Event} {n : PlaybackNotification} {ns ms : List PlaybackNotification}

theorem unsubtracted_append : unsubtracted (ns ++ ms) = unsubtracted ns + unsubtracted ms := by
  induction ns with
  | nil => exact (Nat.zero_add _).symm
  | cons n ns ih =>
    rw [List.cons_append, unsubtracted, unsubtracted, ih, Nat.add_assoc]

theorem Balanced.balanced (h : p.Balanced) (hquiet : p.Quiet) :
    p.bytesInPlaybackBuffer = p.playbackQueue.enqueuedLength := by
  have hbytes := h.bytes
  unfold uncounted at hbytes
  rw [hquiet.1, hquiet.2] at hbytes
  exact hbytes

/-- What is dequeued is taken off the queue, and comes to be subtracted. -/
theorem Balanced.playbackCallback (h : p.Balanced) {inNumberSamples : UInt32}
    (hfit : (Event.playbackCallback inNumberSamples).Fits p) :
    (p.playbackCallback inNumberSamples).Balanced := by
  have hbytes := h.bytes
  unfold Playback.playbackCallback
  dsimp only
  split_ifs with hstarved
  · constructor
    · exact h.wellFormed
    · have hconsumed : PlaybackNotification.consumedByteCount
          ⟨(inNumberSamples * sampleSizeInBytes).toNat, p.playbackQueue.enqueuedLength⟩ = 0 :=
        if_neg (Nat.not_le.mpr hstarved)
      dsimp only
      rw [unsubtracted_append, unsubtracted, unsubtracted, hconsumed]
      exact hbytes
  · have hle : (inNumberSamples * sampleSizeInBytes).toNat ≤ p.playbackQueue.count.toNat :=
      Nat.not_lt.mp hstarved
    obtain ⟨b, hdiscard, hb, hcount⟩ := CyclicalBuffer.discard_count h.wellFormed (hfit hle) hle
    rw [CyclicalBuffer.run_dequeuePotentialyVolatileDataWithLength h.wellFormed,
      CyclicalBuffer.run_dequeueDataWithLength h.wellFormed, hdiscard]
    constructor
    · exact hb
    · have hconsumed : PlaybackNotification.consumedByteCount
          ⟨(inNumberSamples * sampleSizeInBytes).toNat, p.playbackQueue.enqueuedLength⟩ =
            (inNumberSamples * sampleSizeInBytes).toNat := if_pos hle
      have hleft : b.enqueuedLength =
          p.playbackQueue.enqueuedLength - (inNumberSamples * sampleSizeInBytes).toNat := hcount
      have henqueued : p.playbackQueue.enqueuedLength = p.playbackQueue.count.toNat := rfl
      dsimp only
      rw [unsubtracted_append, unsubtracted, unsubtracted, hconsumed, hleft]
      change p.bytesInPlaybackBuffer + p.uncounted = _
      omega

/-- What was dequeued is subtracted. -/
theorem Balanced.beginNotification (h : p.Balanced) (hposted : p.posted = n :: ns)
    (hrefill : p.refill = none) (hfit : p.FirstFits p.posted) :
    ({ p with posted := ns }.beginNotification n).Balanced := by
  have hbytes := h.bytes
  have huncounted : p.uncounted = 0 := by
    unfold uncounted
    rw [hrefill]
  rw [hposted, FirstFits] at hfit
  rw [hposted, unsubtracted, huncounted] at hbytes
  unfold Playback.beginNotification
  dsimp only
  by_cases hterminated : p.state = .terminated
  · rw [if_pos hterminated] at hfit ⊢
    constructor
    · exact h.wellFormed
    · change p.bytesInPlaybackBuffer + p.uncounted = p.playbackQueue.enqueuedLength + unsubtracted ns
      omega
  · rw [if_neg hterminated] at hfit ⊢
    constructor
    · exact h.wellFormed
    · change (if p.bytesInPlaybackBuffer ≥ n.requestedByteCount then
        p.bytesInPlaybackBuffer - n.requestedByteCount else p.bytesInPlaybackBuffer) =
          p.playbackQueue.enqueuedLength + unsubtracted ns
      unfold PlaybackNotification.consumedByteCount at hbytes
      by_cases hstarved : n.availableByteCount < n.requestedByteCount
      · have hfewer := hfit hstarved
        rw [if_neg (Nat.not_le.mpr hstarved)] at hbytes
        rw [if_neg (Nat.not_le.mpr hfewer)]
        omega
      · rw [if_pos (Nat.not_lt.mp hstarved)] at hbytes
        rw [if_pos (by omega)]
        omega

theorem populatePlaybackQueueWithData_spec {data : NSData} (h : p.playbackQueue.WellFormed)
    (hfit : p.playbackQueue.enqueuedLength + data.length < 2 ^ 32) :
    ∃ b, p.populatePlaybackQueueWithData data =
        (.ok (), { p with playbackQueue := b, everEnqueued := p.everEnqueued + data.length }) ∧
      b.WellFormed ∧ b.enqueuedLength = p.playbackQueue.enqueuedLength + data.length := by
  unfold populatePlaybackQueueWithData
  by_cases hdata : data.length = 0
  · rw [if_pos hdata, hdata]
    exact ⟨p.playbackQueue, rfl, h, rfl⟩
  · obtain ⟨b, henqueue, hb, hcount⟩ := CyclicalBuffer.enqueueData_count h hfit
    rw [if_neg hdata, henqueue]
    exact ⟨b, rfl, hb, hcount⟩

/-- What the queue is populated with comes to be added. -/
theorem Balanced.decodeFrame (h : p.Balanced) {decodedAudioData : Option NSData} {requested : ℕ}
    (hrefill : p.refill = some ⟨requested, none⟩)
    (hfit : (Event.decodeFrame decodedAudioData).Fits p) :
    (p.decodeFrame decodedAudioData ⟨requested, none⟩).Balanced := by
  have hbytes := h.bytes
  unfold uncounted at hbytes
  rw [hrefill] at hbytes
  cases decodedAudioData with
  | none => exact ⟨h.wellFormed, hbytes⟩
  | some data =>
    obtain ⟨b, hpopulate, hb, hlength⟩ := populatePlaybackQueueWithData_spec h.wellFormed hfit
    unfold Playback.decodeFrame
    dsimp only
    rw [hpopulate]
    constructor
    · exact hb
    · change p.bytesInPlaybackBuffer + data.length = b.enqueuedLength + unsubtracted p.posted
      dsimp only at hbytes
      omega

/-- Every step that fits keeps the balance. -/
theorem Balanced.step (h : p.Balanced) (hstep : p.step e = some q) (hfit : e.Fits p) :
    q.Balanced := by
  have hbytes := h.bytes
  cases e with
  | start =>
    obtain rfl := step_start hstep
    exact ⟨h.wellFormed, hbytes⟩
  | playbackCallback inNumberSamples =>
    obtain rfl := Option.some.inj hstep
    exact h.playbackCallback hfit
  | beginNotification =>
    obtain ⟨n, ns, hposted, hrefill, rfl⟩ := step_beginNotification hstep
    exact h.beginNotification hposted hrefill hfit
  | decodeFrame decodedAudioData =>
    obtain ⟨requested, hrefill, rfl⟩ := step_decodeFrame hstep
    exact h.decodeFrame hrefill hfit
  | countFrame =>
    obtain ⟨requested, length, hrefill, rfl⟩ := step_countFrame hstep
    unfold uncounted at hbytes
    rw [hrefill] at hbytes
    exact ⟨h.wellFormed, hbytes⟩
  | endLoop =>
    obtain ⟨requested, hrefill, rfl⟩ := step_endLoop hstep
    unfold uncounted at hbytes
    rw [hrefill] at hbytes
    exact ⟨h.wellFormed, hbytes⟩
  | cancel =>
    obtain rfl := Option.some.inj hstep
    exact ⟨h.wellFormed, hbytes⟩

/-- Bytes are only added once the queue was populated with them. -/
def Bounded (p : Playback) : Prop := p.bytesInPlaybackBuffer + p.uncounted ≤ p.everEnqueued

theorem Bounded.playbackCallback (h : p.Bounded) (inNumberSamples : UInt32) :
    (p.playbackCallback inNumberSamples).Bounded := by
  unfold Playback.playbackCallback
  dsimp only
  split_ifs
  · exact h
  · split <;> exact h

theorem Bounded.decodeFrame (h : p.Bounded) {decodedAudioData : Option NSData} {requested : ℕ}
    (hrefill : p.refill = some ⟨requested, none⟩) :
    (p.decodeFrame decodedAudioData ⟨requested, none⟩).Bounded := by
  unfold Bounded uncounted at h
  rw [hrefill] at h
  dsimp only at h
  cases decodedAudioData with
  | none => exact h
  | some data =>
    unfold Playback.decodeFrame populatePlaybackQueueWithData
    by_cases hdata : data.length = 0
    · simp only [if_pos hdata]
      change p.bytesInPlaybackBuffer + data.length ≤ p.everEnqueued
      omega
    · simp only [if_neg hdata]
      rcases (CyclicalBuffer.enqueueData data).run.run p.playbackQueue with ⟨e | _, b⟩
      · exact h
      · exact Nat.add_le_add_right h data.length

/-- Whatever happens, no more bytes are counted than there ever were. -/
theorem Bounded.step (h : p.Bounded) (hstep : p.step e = some q) : q.Bounded := by
  have hbytes := h
  unfold Bounded at hbytes
  cases e with
  | start =>
    obtain rfl := step_start hstep
    exact h
  | playbackCallback inNumberSamples =>
    obtain rfl := Option.some.inj hstep
    exact h.playbackCallback inNumberSamples
  | beginNotification =>
    obtain ⟨n, ns, hposted, hrefill, rfl⟩ := step_beginNotification hstep
    unfold Playback.beginNotification
    dsimp only
    split_ifs
    · exact h
    · change p.bytesInPlaybackBuffer - n.requestedByteCount ≤ p.everEnqueued
      omega
    · change p.bytesInPlaybackBuffer ≤ p.everEnqueued
      omega
  | decodeFrame decodedAudioData =>
    obtain ⟨requested, hrefill, rfl⟩ := step_decodeFrame hstep
    exact h.decodeFrame hrefill
  | countFrame =>
    obtain ⟨requested, length, hrefill, rfl⟩ := step_countFrame hstep
    unfold uncounted at hbytes
    rw [hrefill] at hbytes
    exact hbytes
  | endLoop =>
    obtain ⟨requested, hrefill, rfl⟩ := step_endLoop hstep
    unfold uncounted at hbytes
    rw [hrefill] at hbytes
    exact hbytes
  | cancel =>
    obtain rfl := Option.some.inj hstep
    exact h

end Playback

variable {tr : History Playback Playback.Event}

theorem bytesInPlaybackBuffer_le_everEnqueued (h : playback.Run tr) :
    (playback.last tr).bytesInPlaybackBuffer ≤ (playback.last tr).everEnqueued := by
  have hbounded : (playback.last tr).Bounded :=
    h.state_invariant (Nat.le_refl 0) fun _ _ _ hI hstep => hI.step hstep
  exact Nat.le_trans (Nat.le_add_right _ _) hbounded

/-- In a run whose steps all fit, the counted bytes are the bytes in the queue whenever no
notification is outstanding. -/
theorem accounted_of_fits (h : playback.Run tr)
    (hfits : Machine.Guarded (fun tr e => Playback.Event.Fits (playback.last tr) e) tr) :
    Machine.Always (fun tr => (playback.last tr).Accounted) tr := by
  have hinit : (playback.last []).Balanced ∧ (playback.last []).Bounded :=
    ⟨⟨CyclicalBuffer.wellFormed_withCapacity (by decide), rfl⟩, Nat.le_refl 0⟩
  have hkept : Machine.Always
      (fun tr => (playback.last tr).Balanced ∧ (playback.last tr).Bounded) tr :=
    h.always_of_guarded hinit (fun tr e p _ hP hstep hfit =>
      ⟨hP.1.step hstep hfit, hP.2.step hstep⟩) hfits
  apply hkept.mono
  rintro tr ⟨hbalanced, hbounded⟩
  exact ⟨hbalanced.balanced, Nat.le_trans (Nat.le_add_right _ _) hbounded⟩

/-- A callback that is starved, and one that is not. -/
def starvedOnce : List Playback.Event :=
  [.start, .playbackCallback 4, .beginNotification, .decodeFrame (some (List.replicate 10 0)),
    .playbackCallback 4, .countFrame, .decodeFrame none, .beginNotification, .decodeFrame none]

theorem accounted_starvedOnce : ∃ tr, playback.exec starvedOnce = some tr ∧
    Machine.Always (fun tr => (playback.last tr).Accounted) tr := by
  have hexec : (playback.exec starvedOnce).map (fun tr => decide
      (Machine.Guarded (fun tr e => Playback.Event.Fits (playback.last tr) e) tr)) = some true := by
    rfl
  obtain ⟨tr, htr, hfits⟩ := Option.map_eq_some_iff.mp hexec
  exact ⟨tr, htr, accounted_of_fits (Machine.run_of_exec htr) (of_decide_eq_true hfits)⟩

/-- Two callbacks are starved before the first of their notifications is handled, which refills the
queue. -/
def starvedTwice : List Playback.Event :=
  [.start, .playbackCallback 160, .playbackCallback 160, .beginNotification,
    .decodeFrame (some (List.replicate 320 0)), .countFrame, .decodeFrame none, .beginNotification,
    .decodeFrame none]

set_option maxRecDepth 2000 in
/-- The second notification subtracts bytes that were never taken from the queue. -/
theorem starvedTwice_miscounts : ∃ tr, playback.exec starvedTwice = some tr ∧ playback.Run tr ∧
    (playback.last tr).Quiet ∧ (playback.last tr).bytesInPlaybackBuffer = 0 ∧
      (playback.last tr).playbackQueue.enqueuedLength = 320 ∧
      ¬ Machine.Always (fun tr => (playback.last tr).Accounted) tr := by
  have hexec : (playback.exec starvedTwice).map (fun tr => ((playback.last tr).posted,
      (playback.last tr).refill, (playback.last tr).bytesInPlaybackBuffer,
      (playback.last tr).playbackQueue.enqueuedLength)) = some ([], none, 0, 320) := by rfl
  obtain ⟨tr, htr, hget⟩ := Option.map_eq_some_iff.mp hexec
  obtain ⟨hposted, hrefill, hbytes, hlength⟩ : _ ∧ _ ∧ _ ∧ _ := by
    simpa only [Prod.mk.injEq] using hget
  have hquiet : (playback.last tr).Quiet := ⟨hposted, hrefill⟩
  refine ⟨tr, htr, Machine.run_of_exec htr, hquiet, hbytes, hlength, ?_⟩
  intro h
  have hbalanced := h.last.balanced hquiet
  omega

end SignalIOS.Audio
