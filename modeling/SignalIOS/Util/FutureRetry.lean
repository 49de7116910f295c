import SignalIOS.Lib.Binary64
import SignalIOS.Lib.Runs
import SignalIOS.Util.NSData

/-! `retry` of `FutureUtil`: an operation is tried again, with other timeouts, while it times out. -/
namespace SignalIOS.FutureUtil
open SignalIOS.Lib

/-- Seconds, in the arithmetic of doubles: products are rounded, become infinite where they are too
large, and are no numbers where zero meets infinity. -/
abbrev NSTimeInterval := Float

/-- What a future fails with. An exception that a continuation raises is a failure too. -/
inductive Failure (ε : Type)
  | timeout
  | cancelled
  | exception (e : Exception)
  | other (e : ε)
  deriving DecidableEq

def Failure.isTimeout {ε : Type} : Failure ε → Bool
  | .timeout => true
  | _ => false

inductive Outcome (α ε : Type)
  | result (value : α)
  | failure (error : Failure ε)
  deriving DecidableEq

/-- A future, by where its outcome comes from. A continuation sees whether the caller has
cancelled when it is run, and returns the future that the outcome is then taken from. -/
inductive TOCFuture (α ε : Type)
  | completed (outcome : Outcome α ε)
  | fromUntilOperation (operationTimeout : NSTimeInterval)
  | catching (future : TOCFuture α ε)
      (failureContinuation : Failure ε → (isAlreadyCancelled : Bool) → TOCFuture α ε)

namespace TOCFuture
variable {α ε : Type}

/-- `catch:` with a continuation whose exceptions become failures. -/
def catchTry (future : TOCFuture α ε)
    (failureContinuation : Failure ε → Bool → Throws (TOCFuture α ε)) : TOCFuture α ε :=
  .catching future fun error isAlreadyCancelled =>
    match failureContinuation error isAlreadyCancelled with
    | .ok future => future
    | .error e => .completed (.failure (.exception e))

def retry (timeoutRetryFactor : NSTimeInterval) :
    (maxTryCount : ℕ) → (baseTimeout : NSTimeInterval) → Throws (TOCFuture α ε)
  | 0, baseTimeout => do
    owsRequire (baseTimeout ≥ 0)
    owsRequire (timeoutRetryFactor ≥ 0)
    return .completed (.failure .timeout)
  | maxTryCount + 1, baseTimeout => do
    owsRequire (baseTimeout ≥ 0)
    owsRequire (timeoutRetryFactor ≥ 0)
    return (fromUntilOperation baseTimeout).catchTry fun error isAlreadyCancelled =>
      let operationDidNotTimeout := !error.isTimeout
      if isAlreadyCancelled || operationDidNotTimeout then return .completed (.failure error)
      else retry timeoutRetryFactor maxTryCount (baseTimeout * timeoutRetryFactor)

/-- The operations that are started where a future is made, by their timeouts. -/
def operations : TOCFuture α ε → List NSTimeInterval
  | .completed _ => []
  | .fromUntilOperation operationTimeout => [operationTimeout]
  | .catching future _ => future.operations

/-- The operation that runs ends. -/
def complete (outcome : Outcome α ε) : TOCFuture α ε → Option (TOCFuture α ε)
  | .completed _ => none
  | .fromUntilOperation _ => some (.completed outcome)
  | .catching future failureContinuation =>
    (future.complete outcome).map (.catching · failureContinuation)

/-- The outcome of a future that has completed is passed on. With it come the operations that
this starts. -/
def passOn (isAlreadyCancelled : Bool) :
    TOCFuture α ε → Option (TOCFuture α ε × List NSTimeInterval)
  | .completed _ => none
  | .fromUntilOperation _ => none
  | .catching (.completed (.result value)) _ => some (.completed (.result value), [])
  | .catching (.completed (.failure error)) failureContinuation =>
    let next := failureContinuation error isAlreadyCancelled
    some (next, next.operations)
  | .catching future failureContinuation =>
    (future.passOn isAlreadyCancelled).map fun next => (.catching next.1 failureContinuation, next.2)

/-- The future that `retry` has returned, whether the caller has cancelled, and the timeouts of
the operations that were started, the last one first. -/
structure Retrying (α ε : Type) where
  future : TOCFuture α ε
  isAlreadyCancelled : Bool
  started : List NSTimeInterval

inductive Event (α ε : Type)
  | cancel
  | complete (outcome : Outcome α ε)
  | passOn

def step (s : Retrying α ε) : Event α ε → Option (Retrying α ε)
  | .cancel => some { s with isAlreadyCancelled := true }
  | .complete outcome => (s.future.complete outcome).map fun future => { s with future }
  | .passOn => (s.future.passOn s.isAlreadyCancelled).map fun next =>
    { s with future := next.1, started := next.2 ++ s.started }

/-- The runs of a future, from where it was returned. -/
def machine (future : TOCFuture α ε) : Machine (Retrying α ε) (Event α ε) where
  init := ⟨future, false, future.operations⟩
  step := step

def Event.outcome? : Event α ε → Option (Outcome α ε)
  | .complete outcome => some outcome
  | _ => none

/-- An event that takes a future further. -/
def Event.isMove : Event α ε → Bool
  | .cancel => false
  | _ => true

/-- How the operations of a run have ended, the last one first. -/
def outcomes (tr : History (Retrying α ε) (Event α ε)) : List (Outcome α ε) :=
  tr.filterMap fun p => p.1.outcome?

section
variable {factor base t : NSTimeInterval} {maxTryCount : ℕ} {o : Outcome α ε}

/-- The continuation of an attempt, by the future that the further attempts are made in. -/
def tryAgain (next : TOCFuture α ε) (error : Failure ε) (isAlreadyCancelled : Bool) :
    TOCFuture α ε :=
  if isAlreadyCancelled || !error.isTimeout then .completed (.failure error) else next

/-- The check of a timeout, which fails the future where it is made in a continuation. -/
def checked (t : NSTimeInterval) (next : TOCFuture α ε) : TOCFuture α ε :=
  if 0 ≤ t then next else .completed (.failure (.exception .badArgument))

/-- The future that `retry` returns where its own checks pass. -/
def attempts (factor : NSTimeInterval) : ℕ → NSTimeInterval → TOCFuture α ε
  | 0, _ => .completed (.failure .timeout)
  | n + 1, t => .catching (.fromUntilOperation t)
    (tryAgain (checked (t * factor) (attempts factor n (t * factor))))

theorem retry_of_not_zero_le (n : ℕ) (ht : ¬0 ≤ t) :
    (retry factor n t : Throws (TOCFuture α ε)) = .error .badArgument := by
  have hrequire : owsRequire (t ≥ 0) = .error .badArgument := if_neg ht
  cases n <;> rw [retry, hrequire] <;> rfl

theorem retry_of_checks (hfactor : 0 ≤ factor) (n : ℕ) (ht : 0 ≤ t) :
    (retry factor n t : Throws (TOCFuture α ε)) = .ok (attempts factor n t) := by
  have hrequire : owsRequire (t ≥ 0) = .ok () := owsRequire_eq_ok.mpr ht
  have hrequire' : owsRequire (factor ≥ 0) = .ok () := owsRequire_eq_ok.mpr hfactor
  induction n generalizing t with
  | zero =>
    rw [retry, hrequire, hrequire']
    rfl
  | succ n ih =>
    have hcatch : ((fromUntilOperation t).catchTry fun error isAlreadyCancelled =>
        if isAlreadyCancelled || !error.isTimeout then return .completed (.failure error)
        else retry factor n (t * factor)) = (attempts factor (n + 1) t : TOCFuture α ε) := by
      rw [catchTry, attempts]
      congr 1
      funext error isAlreadyCancelled
      unfold tryAgain checked
      split_ifs with hstop hnext
      · rfl
      · rw [ih hnext (owsRequire_eq_ok.mpr hnext)]
      · rw [retry_of_not_zero_le _ hnext]
    rw [retry, hrequire, hrequire', ← hcatch]
    rfl

/-- `retry` raises where one of its arguments is below zero, or is no number. -/
theorem checks_of_retry {n : ℕ} {future : TOCFuture α ε} (h : retry factor n t = .ok future) :
    0 ≤ t ∧ 0 ≤ factor := by
  cases n with
  | zero =>
    obtain ⟨_, hbase, h⟩ := Throws.bind_eq_ok.mp h
    obtain ⟨_, hfactor, -⟩ := Throws.bind_eq_ok.mp h
    exact ⟨owsRequire_eq_ok.mp hbase, owsRequire_eq_ok.mp hfactor⟩
  | succ n =>
    obtain ⟨_, hbase, h⟩ := Throws.bind_eq_ok.mp h
    obtain ⟨_, hfactor, -⟩ := Throws.bind_eq_ok.mp h
    exact ⟨owsRequire_eq_ok.mp hbase, owsRequire_eq_ok.mp hfactor⟩

/-- The checks have passed where a future is returned. -/
theorem retry_eq_attempts {future : TOCFuture α ε}
    (h : retry factor maxTryCount base = .ok future) :
    future = attempts factor maxTryCount base :=
  Except.ok.inj (h.symm.trans (retry_of_checks (checks_of_retry h).2 _ (checks_of_retry h).1))

/-- The timeout of an attempt, which are counted from zero. -/
def attemptTimeout (base factor : NSTimeInterval) : ℕ → NSTimeInterval
  | 0 => base
  | k + 1 => attemptTimeout base factor k * factor

/-- Zero times infinity, which is no number. -/
def ZeroTimesInfinity (base factor : NSTimeInterval) : Prop :=
  (base == 0) = true ∧ factor.isInf = true ∨ base.isInf = true ∧ (factor == 0) = true

theorem zero_le_mul_iff (hbase : 0 ≤ base) (hfactor : 0 ≤ factor) :
    0 ≤ base * factor ↔ ¬ZeroTimesInfinity base factor := by
  rw [Binary64.zero_le_mul_iff hbase hfactor, Bool.eq_false_iff, Ne,
    Binary64.isNaN_mul_iff hbase hfactor]
  rfl

/-- The checks of all attempts pass where that of the second one does. -/
theorem zero_le_attemptTimeout (hbase : 0 ≤ base) (hfactor : 0 ≤ factor)
    (hproduct : ¬ZeroTimesInfinity base factor) (k : ℕ) : 0 ≤ attemptTimeout base factor k := by
  have hboth : 0 ≤ attemptTimeout base factor k ∧ 0 ≤ attemptTimeout base factor (k + 1) := by
    induction k with
    | zero => exact ⟨hbase, (zero_le_mul_iff hbase hfactor).mpr hproduct⟩
    | succ k ih => exact ⟨ih.2, Binary64.zero_le_mul_mul ih.1 hfactor ih.2⟩
  exact hboth.1

/-- The timeouts of the first attempts, the last one first. -/
def timeouts (base factor : NSTimeInterval) (n : ℕ) : List NSTimeInterval :=
  ((List.range n).map (attemptTimeout base factor)).reverse

/-- The future in which the attempts from attempt `k` on are made. -/
def attemptsFrom (base factor : NSTimeInterval) (n k : ℕ) : TOCFuture α ε :=
  checked (attemptTimeout base factor k) (attempts factor n (attemptTimeout base factor k))

/-- How far a future has come: which attempt runs or has ended, how the attempts have ended,
whether the last of them is the outcome, and how many events it took. Where the second timeout is
no number, its check is the outcome. -/
inductive Progress (base factor : NSTimeInterval) (maxTryCount : ℕ) :
    Retrying α ε → List (Outcome α ε) → ℕ → Prop
  | running {k n : ℕ} (cancelled : Bool) (hcount : k + 1 + n = maxTryCount)
      (hproduct : k ≠ 0 → ¬ZeroTimesInfinity base factor) :
      Progress base factor maxTryCount
        ⟨.catching (.fromUntilOperation (attemptTimeout base factor k))
          (tryAgain (attemptsFrom base factor n (k + 1))), cancelled, timeouts base factor (k + 1)⟩
        (List.replicate k (.failure .timeout)) (2 * k)
  | ended {k n : ℕ} (cancelled : Bool) (o : Outcome α ε) (hcount : k + 1 + n = maxTryCount)
      (hproduct : k ≠ 0 → ¬ZeroTimesInfinity base factor) :
      Progress base factor maxTryCount
        ⟨.catching (.completed o) (tryAgain (attemptsFrom base factor n (k + 1))), cancelled,
          timeouts base factor (k + 1)⟩
        (o :: List.replicate k (.failure .timeout)) (2 * k + 1)
  | completed {k : ℕ} (cancelled : Bool) (o : Outcome α ε) (hcount : k + 1 ≤ maxTryCount)
      (hproduct : k ≠ 0 → ¬ZeroTimesInfinity base factor)
      (hlast : o = .failure .timeout →
        cancelled = true ∨ k + 1 = maxTryCount ∧ ¬ZeroTimesInfinity base factor) :
      Progress base factor maxTryCount ⟨.completed o, cancelled, timeouts base factor (k + 1)⟩
        (o :: List.replicate k (.failure .timeout)) (2 * k + 2)
  | refused (cancelled : Bool) (hcount : 1 ≤ maxTryCount)
      (hproduct : ZeroTimesInfinity base factor) :
      Progress base factor maxTryCount
        ⟨.completed (.failure (.exception .badArgument)), cancelled, timeouts base factor 1⟩
        [.failure .timeout] 2
  | noAttempt (cancelled : Bool) (hcount : maxTryCount = 0) :
      Progress base factor maxTryCount ⟨.completed (.failure .timeout), cancelled, []⟩ [] 0

theorem timeouts_succ (base factor : NSTimeInterval) (n : ℕ) :
    timeouts base factor (n + 1) = attemptTimeout base factor n :: timeouts base factor n := by
  rw [timeouts, List.range_succ, List.map_append, List.reverse_append]
  rfl

theorem isTimeout_iff {error : Failure ε} : error.isTimeout = true ↔ error = .timeout := by
  cases error <;> simp [Failure.isTimeout]

/-- Where a future of attempts starts: with the first of them, or with none. -/
theorem progress_attempts :
    Progress base factor maxTryCount (machine (attempts factor maxTryCount base)).init
      ([] : List (Outcome α ε)) 0 := by
  cases maxTryCount with
  | zero => exact .noAttempt false rfl
  | succ n => exact .running (k := 0) false (by omega) fun hne => absurd rfl hne

/-- What follows an attempt that has timed out: the check of the next timeout, and with it the next
attempt, if there is one. -/
theorem progress_attemptsFrom (hbase : 0 ≤ base) (hfactor : 0 ≤ factor) {k n : ℕ}
    (hcount : k + 1 + n = maxTryCount) (hproduct : k ≠ 0 → ¬ZeroTimesInfinity base factor) :
    let next : TOCFuture α ε := attemptsFrom base factor n (k + 1)
    Progress base factor maxTryCount
      ⟨next, false, next.operations ++ timeouts base factor (k + 1)⟩
      (.failure .timeout :: List.replicate k (.failure .timeout)) (2 * k + 2) := by
  intro next
  by_cases hzero : ZeroTimesInfinity base factor
  · -- The attempt was the first one, as the check of the second one fails.
    obtain rfl : k = 0 := Classical.byContradiction fun hne => hproduct hne hzero
    have hfails : ¬0 ≤ attemptTimeout base factor 1 := fun h =>
      (zero_le_mul_iff hbase hfactor).mp h hzero
    have hrefused : next = .completed (.failure (.exception .badArgument)) := if_neg hfails
    rw [hrefused]
    exact .refused false (by omega) hzero
  · have hpasses := zero_le_attemptTimeout hbase hfactor hzero (k + 1)
    have hchecked : next = attempts factor n (attemptTimeout base factor (k + 1)) := if_pos hpasses
    rw [hchecked]
    cases n with
    | zero =>
      exact .completed false (.failure .timeout) (by omega) (fun _ => hzero)
        fun _ => .inr ⟨by omega, hzero⟩
    | succ n =>
      have hstarted : (attempts factor (n + 1) (attemptTimeout base factor (k + 1)) :
          TOCFuture α ε).operations ++ timeouts base factor (k + 1) =
          timeouts base factor (k + 2) := (timeouts_succ base factor (k + 1)).symm
      rw [hstarted]
      exact .running (k := k + 1) false (by omega) fun _ => hzero

/-- What follows an attempt that has failed. -/
theorem progress_tryAgain (hbase : 0 ≤ base) (hfactor : 0 ≤ factor) {k n : ℕ} (cancelled : Bool)
    (error : Failure ε) (hcount : k + 1 + n = maxTryCount)
    (hproduct : k ≠ 0 → ¬ZeroTimesInfinity base factor) :
    let next : TOCFuture α ε := tryAgain (attemptsFrom base factor n (k + 1)) error cancelled
    Progress base factor maxTryCount
        ⟨next, cancelled, next.operations ++ timeouts base factor (k + 1)⟩
        (.failure error :: List.replicate k (.failure .timeout)) (2 * k + 2) ∧
      (next.operations ≠ [] → error = .timeout ∧ cancelled = false) := by
  intro next
  by_cases hstop : (cancelled || !error.isTimeout) = true
  · have hnext : next = .completed (.failure error) := if_pos hstop
    rw [hnext]
    constructor
    · apply Progress.completed cancelled (.failure error) (by omega) hproduct
      intro htimeout
      obtain rfl : error = .timeout := by cases htimeout; rfl
      left
      simpa [Failure.isTimeout] using hstop
    · intro hne
      exact absurd rfl hne
  · have hnext : next = attemptsFrom base factor n (k + 1) := if_neg hstop
    have hboth : cancelled = false ∧ error.isTimeout = true := by
      cases cancelled <;> cases hisTimeout : error.isTimeout <;> simp_all
    obtain rfl := isTimeout_iff.mp hboth.2
    obtain rfl := hboth.1
    rw [hnext]
    exact ⟨progress_attemptsFrom hbase hfactor hcount hproduct, fun _ => ⟨rfl, rfl⟩⟩

/-- What one event does. It starts an attempt only where the last one has timed out, and the
caller has not cancelled. -/
theorem progress_step (hbase : 0 ≤ base) (hfactor : 0 ≤ factor) {s s' : Retrying α ε}
    {os : List (Outcome α ε)} {e : Event α ε} {moves : ℕ}
    (h : Progress base factor maxTryCount s os moves) (hstep : step s e = some s') :
    Progress base factor maxTryCount s' (e.outcome?.toList ++ os)
        (moves + if e.isMove then 1 else 0) ∧
      (s'.started ≠ s.started →
        os.head? = some (.failure .timeout) ∧ s.isAlreadyCancelled = false) := by
  cases h with
  | running cancelled hcount hproduct =>
    cases e with
    | cancel =>
      obtain rfl := Option.some.inj hstep
      exact ⟨.running true hcount hproduct, fun hne => absurd rfl hne⟩
    | complete o =>
      obtain rfl := Option.some.inj hstep
      exact ⟨.ended cancelled o hcount hproduct, fun hne => absurd rfl hne⟩
    | passOn => cases hstep
  | ended cancelled o hcount hproduct =>
    cases e with
    | cancel =>
      obtain rfl := Option.some.inj hstep
      exact ⟨.ended true o hcount hproduct, fun hne => absurd rfl hne⟩
    | complete o' => cases hstep
    | passOn =>
      cases o with
      | result value =>
        obtain rfl := Option.some.inj hstep
        exact ⟨.completed cancelled (.result value) (by omega) hproduct (fun h => by cases h),
          fun hne => absurd rfl hne⟩
      | failure error =>
        obtain rfl := Option.some.inj hstep
        obtain ⟨hprogress, hstarts⟩ := progress_tryAgain hbase hfactor cancelled error hcount
          hproduct
        refine ⟨hprogress, fun hne => ?_⟩
        obtain ⟨rfl, hcancelled⟩ := hstarts fun hnone => hne (by rw [hnone]; rfl)
        exact ⟨rfl, hcancelled⟩
  | completed cancelled o hcount hproduct hlast =>
    cases e with
    | cancel =>
      obtain rfl := Option.some.inj hstep
      exact ⟨.completed true o hcount hproduct fun _ => .inl rfl, fun hne => absurd rfl hne⟩
    | complete o' => cases hstep
    | passOn => cases hstep
  | refused cancelled hcount hproduct =>
    cases e with
    | cancel =>
      obtain rfl := Option.some.inj hstep
      exact ⟨.refused true hcount hproduct, fun hne => absurd rfl hne⟩
    | complete o' => cases hstep
    | passOn => cases hstep
  | noAttempt cancelled hcount =>
    cases e with
    | cancel =>
      obtain rfl := Option.some.inj hstep
      exact ⟨.noAttempt true hcount, fun hne => absurd rfl hne⟩
    | complete o' => cases hstep
    | passOn => cases hstep

/-- The number of events of a run other than cancellations. -/
def moves (tr : History (Retrying α ε) (Event α ε)) : ℕ := (tr.filter fun p => p.1.isMove).length

variable {future : TOCFuture α ε} {tr : History (Retrying α ε) (Event α ε)}

theorem outcomes_cons (e : Event α ε) (s : Retrying α ε)
    (tr : History (Retrying α ε) (Event α ε)) :
    outcomes ((e, s) :: tr) = e.outcome?.toList ++ outcomes tr := by
  cases e <;> rfl

theorem moves_cons (e : Event α ε) (s : Retrying α ε) (tr : History (Retrying α ε) (Event α ε)) :
    moves ((e, s) :: tr) = moves tr + if e.isMove then 1 else 0 := by
  cases e <;> rfl

theorem progress_run (hbase : 0 ≤ base) (hfactor : 0 ≤ factor)
    (hrun : (machine (attempts factor maxTryCount base : TOCFuture α ε)).Run tr) :
    Progress base factor maxTryCount
      ((machine (attempts factor maxTryCount base)).last tr) (outcomes tr) (moves tr) := by
  apply hrun.invariant (P := fun tr => Progress base factor maxTryCount
    ((machine (attempts factor maxTryCount base)).last tr) (outcomes tr) (moves tr))
  · exact progress_attempts
  · intro tr e s' _ hprogress hstep
    rw [outcomes_cons, moves_cons]
    exact (progress_step hbase hfactor hprogress hstep).1

/-- The caller is known to have cancelled from the time of the event on. -/
theorem isAlreadyCancelled_run (hrun : (machine future).Run tr) :
    ((machine future).last tr).isAlreadyCancelled = true ↔ Event.cancel ∈ tr.map Prod.fst := by
  apply hrun.invariant (P := fun tr => ((machine future).last tr).isAlreadyCancelled = true ↔
    Event.cancel ∈ tr.map Prod.fst)
  · exact iff_of_false Bool.false_ne_true List.not_mem_nil
  · intro tr e s' _ hcancelled hstep
    rw [Machine.last_cons, List.map_cons, List.mem_cons]
    cases e with
    | cancel =>
      obtain rfl := Option.some.inj hstep
      exact iff_of_true rfl (.inl rfl)
    | complete o =>
      obtain ⟨next, -, rfl⟩ := Option.map_eq_some_iff.mp hstep
      simpa using hcancelled
    | passOn =>
      obtain ⟨next, -, rfl⟩ := Option.map_eq_some_iff.mp hstep
      simpa using hcancelled

/-- The outcome of the returned future: the one of the last attempt, all before having timed out.
It is a timeout only where there are no more attempts, or the caller has cancelled. Where the next
timeout is no number, the failure of its check takes the place of the first timeout. -/
def IsVerdict (base factor : NSTimeInterval) (maxTryCount : ℕ)
    (tr : History (Retrying α ε) (Event α ε)) (o : Outcome α ε) : Prop :=
  (maxTryCount = 0 ∧ outcomes tr = [] ∧ o = .failure .timeout) ∨
    (∃ k, outcomes tr = o :: List.replicate k (.failure .timeout) ∧
      (o = .failure .timeout →
        .cancel ∈ tr.map Prod.fst ∨ k + 1 = maxTryCount ∧ ¬ZeroTimesInfinity base factor)) ∨
    (ZeroTimesInfinity base factor ∧ outcomes tr = [.failure .timeout] ∧
      o = .failure (.exception .badArgument))

theorem length_timeouts (base factor : NSTimeInterval) (n : ℕ) :
    (timeouts base factor n).length = n := by
  rw [timeouts, List.length_reverse, List.length_map, List.length_range]

theorem reverse_timeouts (base factor : NSTimeInterval) (n : ℕ) :
    (timeouts base factor n).reverse =
      (List.range (timeouts base factor n).length).map (attemptTimeout base factor) := by
  rw [length_timeouts, timeouts, List.reverse_reverse]

section
variable {s : Retrying α ε} {os : List (Outcome α ε)} {n : ℕ}

theorem Progress.started (h : Progress base factor maxTryCount s os n) :
    s.started.length ≤ maxTryCount ∧
      s.started.reverse = (List.range s.started.length).map (attemptTimeout base factor) ∧
      (ZeroTimesInfinity base factor → s.started.length ≤ 1) := by
  have hfirst : ∀ {k}, (k ≠ 0 → ¬ZeroTimesInfinity base factor) → ZeroTimesInfinity base factor →
      (timeouts base factor (k + 1)).length ≤ 1 := by
    intro k hproduct hzero
    obtain rfl : k = 0 := Classical.byContradiction fun hne => hproduct hne hzero
    rw [length_timeouts]
  cases h with
  | running cancelled hcount hproduct =>
    exact ⟨by rw [length_timeouts]; omega, reverse_timeouts _ _ _, hfirst hproduct⟩
  | ended cancelled o hcount hproduct =>
    exact ⟨by rw [length_timeouts]; omega, reverse_timeouts _ _ _, hfirst hproduct⟩
  | completed cancelled o hcount hproduct hlast =>
    exact ⟨by rw [length_timeouts]; omega, reverse_timeouts _ _ _, hfirst hproduct⟩
  | refused cancelled hcount hproduct =>
    exact ⟨by rw [length_timeouts]; omega, reverse_timeouts _ _ _, fun _ => le_rfl⟩
  | noAttempt cancelled hcount => exact ⟨Nat.zero_le _, rfl, fun _ => Nat.zero_le 1⟩

theorem Progress.verdict (h : Progress base factor maxTryCount s os n)
    (hcompleted : s.future = .completed o) :
    (maxTryCount = 0 ∧ os = [] ∧ o = .failure .timeout) ∨
      (∃ k, os = o :: List.replicate k (.failure .timeout) ∧
        (o = .failure .timeout →
          s.isAlreadyCancelled = true ∨ k + 1 = maxTryCount ∧ ¬ZeroTimesInfinity base factor)) ∨
      (ZeroTimesInfinity base factor ∧ os = [.failure .timeout] ∧
        o = .failure (.exception .badArgument)) := by
  cases h with
  | running cancelled hcount hproduct => cases hcompleted
  | ended cancelled o' hcount hproduct => cases hcompleted
  | completed cancelled o' hcount hproduct hlast =>
    cases hcompleted
    exact .inr (.inl ⟨_, rfl, hlast⟩)
  | refused cancelled hcount hproduct =>
    cases hcompleted
    exact .inr (.inr ⟨hproduct, rfl, rfl⟩)
  | noAttempt cancelled hcount =>
    cases hcompleted
    exact .inl ⟨hcount, rfl, rfl⟩

/-- A future that has not completed waits for the operation to end, or for its outcome to be
passed on. -/
theorem Progress.next (h : Progress base factor maxTryCount s os n) :
    (∃ o, s.future = .completed o) ∨ (∀ o, (step s (.complete o)).isSome) ∨
      (step s .passOn).isSome := by
  cases h with
  | running cancelled hcount hproduct => exact .inr (.inl fun o => rfl)
  | ended cancelled o hcount hproduct =>
    right
    right
    cases o with
    | result value => rfl
    | failure error => rfl
  | completed cancelled o hcount hproduct hlast => exact .inl ⟨o, rfl⟩
  | refused cancelled hcount hproduct => exact .inl ⟨_, rfl⟩
  | noAttempt cancelled hcount => exact .inl ⟨_, rfl⟩

theorem Progress.moves_le (h : Progress base factor maxTryCount s os n) :
    n ≤ 2 * maxTryCount := by
  cases h with
  | running cancelled hcount hproduct => omega
  | ended cancelled o hcount hproduct => omega
  | completed cancelled o hcount hproduct hlast => omega
  | refused cancelled hcount hproduct => omega
  | noAttempt cancelled hcount => omega

end

/-- The laws of a future that is retried: how many attempts are started, with which timeouts, and
when; that it completes with a verdict; and that it does so after a bounded number of events, as
there always is a next one until then. -/
theorem retry_spec (hretry : retry factor maxTryCount base = .ok future)
    (hrun : (machine future).Run tr) :
    let s := (machine future).last tr
    s.started.length ≤ maxTryCount ∧
      s.started.reverse = (List.range s.started.length).map (attemptTimeout base factor) ∧
      (ZeroTimesInfinity base factor → s.started.length ≤ 1) ∧
      (∀ e s' earlier, tr = (e, s') :: earlier →
        s'.started ≠ ((machine future).last earlier).started →
          (outcomes earlier).head? = some (.failure .timeout) ∧
            .cancel ∉ earlier.map Prod.fst) ∧
      (∀ o, s.future = .completed o → IsVerdict base factor maxTryCount tr o) ∧
      ((∃ o, s.future = .completed o) ∨ (∀ o, (step s (.complete o)).isSome) ∨
        (step s .passOn).isSome) ∧
      moves tr ≤ 2 * maxTryCount := by
  obtain ⟨hbase, hfactor⟩ := checks_of_retry hretry
  obtain rfl := retry_eq_attempts hretry
  have hprogress := progress_run hbase hfactor hrun
  have hcancelled := isAlreadyCancelled_run hrun
  intro s
  have hstarts : ∀ e s' earlier, tr = (e, s') :: earlier →
      s'.started ≠ ((machine (attempts factor maxTryCount base)).last earlier).started →
        (outcomes earlier).head? = some (.failure .timeout) ∧
          .cancel ∉ earlier.map Prod.fst := by
    rintro e s' earlier rfl hstarted
    obtain ⟨htimeout, hnot⟩ :=
      (progress_step hbase hfactor (progress_run hbase hfactor hrun.1) hrun.2).2 hstarted
    refine ⟨htimeout, fun hmem => ?_⟩
    rw [(isAlreadyCancelled_run hrun.1).mpr hmem] at hnot
    cases hnot
  have hverdict : ∀ o, s.future = .completed o → IsVerdict base factor maxTryCount tr o := by
    intro o ho
    rcases hprogress.verdict ho with hnone | ⟨k, hos, hlast⟩ | hrefused
    · exact .inl hnone
    · exact .inr (.inl ⟨k, hos, fun htimeout => (hlast htimeout).imp_left hcancelled.mp⟩)
    · exact .inr (.inr hrefused)
  exact ⟨hprogress.started.1, hprogress.started.2.1, hprogress.started.2.2, hstarts, hverdict,
    hprogress.next, hprogress.moves_le⟩

/-- The first of two attempts times out, and the second one has a result. -/
theorem retry_spec_sample :
    ∃ (future : TOCFuture ℕ Empty) (tr : History (Retrying ℕ Empty) (Event ℕ Empty)),
      retry 2 2 0.125 = .ok future ∧ (machine future).Run tr ∧
        ((machine future).last tr).started.length ≤ 2 ∧
        ((machine future).last tr).started = [0.25, 0.125] := by
  have hretry : (retry 2 2 0.125 : Throws (TOCFuture ℕ Empty)) = .ok (attempts 2 2 0.125) :=
    retry_of_checks (by decide +kernel) 2 (by decide +kernel)
  have hevents : ((machine (attempts 2 2 0.125 : TOCFuture ℕ Empty)).exec
      [.complete (.failure .timeout), .passOn, .complete (.result 7), .passOn]).map (fun tr =>
        ((machine (attempts 2 2 0.125)).last tr).started) = some [0.25, 0.125] := by
    decide +kernel
  obtain ⟨tr, hexec, hstarted⟩ := Option.map_eq_some_iff.mp hevents
  have hrun := Machine.run_of_exec hexec
  exact ⟨_, tr, hretry, hrun, (retry_spec hretry hrun).1, hstarted⟩

/-- Zero times infinity is no number, so that the check of a second attempt fails the future, which
does not pass on that the first one has timed out. And a timeout that is multiplied twice is
rounded twice: the third one is not the first one times the square of the factor. -/
theorem retry_not_lastFailure :
    (∃ (future : TOCFuture ℕ Empty) (tr : History (Retrying ℕ Empty) (Event ℕ Empty)),
      retry (1 / 0) 2 0 = .ok future ∧ (machine future).Run tr ∧
        outcomes tr = [.failure .timeout] ∧ .cancel ∉ tr.map Prod.fst ∧
        ((machine future).last tr).started = [0] ∧
        ((machine future).last tr).future = .completed (.failure (.exception .badArgument))) ∧
      ∃ (future : TOCFuture ℕ Empty) (tr : History (Retrying ℕ Empty) (Event ℕ Empty)),
        retry 3 3 0.1 = .ok future ∧ (machine future).Run tr ∧
          ((machine future).last tr).started = [0.1 * 3 * 3, 0.1 * 3, 0.1] ∧
          (0.1 * 3 * 3 : NSTimeInterval) ≠ 0.1 * (3 * 3) := by
  constructor
  · have hretry : (retry (1 / 0) 2 0 : Throws (TOCFuture ℕ Empty)) = .ok (attempts (1 / 0) 2 0) :=
      retry_of_checks (by decide +kernel) 2 (by decide +kernel)
    have hfuture : (attempts (1 / 0) 2 0 : TOCFuture ℕ Empty) =
        .catching (.fromUntilOperation 0)
          (tryAgain (.completed (.failure (.exception .badArgument)))) := by
      rw [attempts, checked, if_neg (by decide +kernel)]
    rw [hfuture] at hretry
    refine ⟨_, _, hretry, @Machine.run_of_exec _ _ _ [.complete (.failure .timeout), .passOn] _ rfl,
      rfl, ?_, rfl, rfl⟩
    rintro (_ | ⟨_, _ | ⟨_, ⟨⟩⟩⟩)
  · have hevents : ((machine (attempts 3 3 0.1 : TOCFuture ℕ Empty)).exec
        [.complete (.failure .timeout), .passOn, .complete (.failure .timeout), .passOn]).map
          (fun tr => ((machine (attempts 3 3 0.1)).last tr).started) =
        some [0.1 * 3 * 3, 0.1 * 3, 0.1] := by
      decide +kernel
    obtain ⟨tr, hexec, hstarted⟩ := Option.map_eq_some_iff.mp hevents
    exact ⟨_, tr, retry_of_checks (by decide +kernel) 3 (by decide +kernel),
      Machine.run_of_exec hexec, hstarted, by decide +kernel⟩

end

end TOCFuture
end SignalIOS.FutureUtil
