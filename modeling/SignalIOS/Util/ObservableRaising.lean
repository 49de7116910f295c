import SignalIOS.Util.ObservableOrder

/-! Observable values whose callbacks and adjustments raise exceptions. -/
namespace SignalIOS
open SignalIOS.Lib

/-- The callbacks that a loop still has to call. -/
def ActionPhase.remaining {V C : Type*} : ActionPhase V C → Finset C
  | .notifying _ remaining => remaining
  | _ => ∅

def ActionPhase.isNotifying {V C : Type*} : ActionPhase V C → Bool
  | .notifying _ _ => true
  | _ => false

/-- An action that has returned or raised. -/
structure EndedAction (V C : Type*) where
  action : QueuedAction V C
  /-- It raised before it could assign a value. -/
  raisedEarly : Bool

namespace EndedAction
variable {V C : Type*}

def assign (value : V) (e : EndedAction V C) : V :=
  if e.raisedEarly then value
  else
    match e.action with
    | .updateValue newValue => newValue
    | .adjustValue adjustment => adjustment value
    | _ => value

/-- The value that the actions leave, one after the other. -/
def valueAfter (value : V) (ended : List (EndedAction V C)) : V := ended.foldl assign value

theorem valueAfter_append (value : V) (ended ended' : List (EndedAction V C)) :
    valueAfter value (ended ++ ended') = valueAfter (valueAfter value ended) ended' :=
  List.foldl_append

theorem valueAfter_append_singleton (value : V) (ended : List (EndedAction V C))
    (e : EndedAction V C) : valueAfter value (ended ++ [e]) = assign (valueAfter value ended) e :=
  valueAfter_append value ended [e]

/-- What is behind an update and assigns nothing leaves its value. -/
theorem valueAfter_of_last_update (value newValue : V) (before after : List (EndedAction V C))
    (hafter : ∀ e ∈ after, ∀ v, assign v e = v) :
    valueAfter value (before ++ ⟨.updateValue newValue, false⟩ :: after) = newValue := by
  rw [valueAfter_append, valueAfter, List.foldl_cons]
  show after.foldl assign newValue = newValue
  clear value before
  induction after with
  | nil => rfl
  | cons e after ih =>
    rw [List.foldl_cons, hafter e List.mem_cons_self]
    exact ih fun e he => hafter e (List.mem_cons_of_mem _ he)

end EndedAction

namespace ObservableValue
variable {V C T : Type*} [DecidableEq V] [DecidableEq C] [DecidableEq T]

/-- What happens where callbacks and adjustments can raise. The exception comes to `queueRun`. -/
inductive RaisingEvent (V C T : Type*)
  | event (e : Event V C T)
  | callbackRaises (i : ℕ)
  | adjustmentRaises (i : ℕ)

def callbackRaises (s : ObservableValue V C T) (i : ℕ) : Option (ObservableValue V C T) :=
  match s.running[i]? with
  | some ⟨_, .registering⟩ => some (s.raiseException i)
  | some ⟨_, .notifying (some _) _⟩ => some (s.raiseException i)
  | _ => none

def adjustmentRaises (s : ObservableValue V C T) (i : ℕ) : Option (ObservableValue V C T) :=
  match s.running[i]? with
  | some ⟨.adjustValue _, .adjusting _⟩ => some (s.raiseException i)
  | _ => none

def stepRaising (s : ObservableValue V C T) : RaisingEvent V C T → Option (ObservableValue V C T)
  | .event e => s.step e
  | .callbackRaises i => s.callbackRaises i
  | .adjustmentRaises i => s.adjustmentRaises i

/-- The loop that the event ends by an exception, which `requireState(!sealed)` can raise as
well. -/
def raisingLoop (s : ObservableValue V C T) : RaisingEvent V C T → Option ℕ
  | .callbackRaises i => some i
  | .adjustmentRaises i => some i
  | .event (.runAction i) =>
    match s.running[i]? with
    | some ⟨.updateValue value, .dequeued⟩ =>
      if value ≠ s.currentValue ∧ s.sealed = true then some i else none
    | _ => none
  | .event (.adjustmentReturns i) =>
    match s.running[i]? with
    | some ⟨.adjustValue adjustment, .adjusting oldValue⟩ =>
      if adjustment oldValue ≠ oldValue ∧ s.sealed = true then some i else none
    | _ => none
  | .event _ => none

/-- The action that the event ends. -/
def endedBy (s : ObservableValue V C T) (e : RaisingEvent V C T) : List (EndedAction V C) :=
  match s.raisingLoop e with
  | some i => s.running[i]?.toList.map fun r => ⟨r.action, !r.phase.isNotifying⟩
  | none =>
    match e with
    | .event (.tryDequeue i) => s.running[i]?.toList.map fun r => ⟨r.action, false⟩
    | _ => []

end ObservableValue

namespace ObservableValue
variable {V C T : Type*} [DecidableEq C] {s s' : ObservableValue V C T} {value : V}
  {ended : List (EndedAction V C)}

/-- What the callback has been called with last. -/
def lastSeen (now : SequentialValue V C) (callback : C) : Option V :=
  (now.seen callback).getLast?.map (·.value)

def UpToDate (now : SequentialValue V C) : Prop :=
  ∀ callback ∈ now.watching, lastSeen now callback = some now.currentValue

/-- How far a loop is with its action, behind those that have ended. -/
def Underway (value : V) (ended : List (EndedAction V C)) (now : SequentialValue V C) :
    RunningAction V C → Prop
  | ⟨_, .dequeued⟩ => now.currentValue = EndedAction.valueAfter value ended ∧ UpToDate now
  | ⟨action, .registering⟩ => now.currentValue = EndedAction.valueAfter value ended ∧
      UpToDate now ∧ ∃ callback, action = .watch callback ∧
        lastSeen now callback = some now.currentValue
  | ⟨action, .adjusting oldValue⟩ => now.currentValue = EndedAction.valueAfter value ended ∧
      UpToDate now ∧ oldValue = now.currentValue ∧ ∃ adjustment, action = .adjustValue adjustment
  | ⟨action, .notifying _ remaining⟩ =>
      now.currentValue = EndedAction.valueAfter value (ended ++ [⟨action, false⟩]) ∧
      (∀ newValue, action = .updateValue newValue → newValue = now.currentValue) ∧
      remaining ⊆ now.watching ∧ ∀ callback ∈ now.watching,
        lastSeen now callback = some now.currentValue ↔ callback ∉ remaining
  | ⟨action, .returned⟩ =>
      now.currentValue = EndedAction.valueAfter value (ended ++ [⟨action, false⟩]) ∧ UpToDate now

/-- At most one loop runs, and none leaves an action behind. -/
structure Steady (value : V) (ended : List (EndedAction V C)) (s : ObservableValue V C T) :
    Prop where
  inOrder : s.submitted = ended.map (·.action) ++ s.running.map (·.action) ++ s.queuedActionsToRun
  running :
    (s.running = [] ∧ s.isRunningActions = false ∧ s.queuedActionsToRun = [] ∧
      s.currentValue = EndedAction.valueAfter value ended ∧ UpToDate s.sequential) ∨
    ∃ r, s.running = [r] ∧ s.isRunningActions = true ∧ Underway value ended s.sequential r

namespace Steady

theorem queueRun (h : Steady value ended s) (action : QueuedAction V C) :
    Steady value ended (s.queueRun action) := by
  unfold ObservableValue.queueRun
  rcases h.running with ⟨hrunning, hidle, hqueued, hsettled⟩ | ⟨r, hrunning, hbusy, hunderway⟩
  · rw [if_neg (by rw [hidle]; exact Bool.false_ne_true)]
    constructor
    case inOrder =>
      dsimp only
      rw [h.inOrder, hrunning, hqueued]
      simp
    case running =>
      refine .inr ⟨⟨action, .dequeued⟩, ?_, rfl, hsettled⟩
      dsimp only
      rw [hrunning]
      rfl
  · rw [if_pos hbusy]
    constructor
    case inOrder =>
      dsimp only
      rw [h.inOrder, List.append_assoc]
    case running => exact .inr ⟨r, hrunning, hbusy, hunderway⟩

theorem congr (h : Steady value ended s) (hs' : SameLoops s s') : Steady value ended s' := by
  constructor
  case inOrder => rw [hs'.submitted, hs'.running, hs'.queuedActionsToRun, h.inOrder]
  case running =>
    rw [hs'.running, hs'.isRunningActions, hs'.queuedActionsToRun, hs'.currentValue,
      hs'.sequential_eq]
    exact h.running

/-- The loop `i` is the only one. -/
theorem running_eq (h : Steady value ended s) {i : ℕ} {r : RunningAction V C}
    (hr : s.running[i]? = some r) :
    s.running = [r] ∧ i = 0 ∧ s.isRunningActions = true ∧
      Underway value ended s.sequential r := by
  rcases h.running with ⟨hrunning, -⟩ | ⟨r', hrunning, hbusy, hunderway⟩
  · rw [hrunning] at hr
    cases hr
  · rw [hrunning, List.getElem?_singleton] at hr
    split at hr
    case isTrue hi =>
      obtain rfl := Option.some.inj hr
      exact ⟨hrunning, hi, hbusy, hunderway⟩
    case isFalse => cases hr

/-- The loop goes on with its action. -/
theorem setPhase (h : Steady value ended s) {r : RunningAction V C} (hrunning : s.running = [r])
    (hbusy : s.isRunningActions = true) (hs' : SameActions s s') {phase : ActionPhase V C}
    (hunderway : Underway value ended s'.sequential ⟨r.action, phase⟩) :
    Steady value ended (s'.setPhase 0 phase) := by
  have hset : (s'.setPhase 0 phase).running = [⟨r.action, phase⟩] := by
    unfold ObservableValue.setPhase
    dsimp only
    rw [hs'.running, hrunning]
    rfl
  constructor
  case inOrder =>
    have hinOrder := h.inOrder
    rw [hrunning] at hinOrder
    rw [hset]
    show s'.submitted = _ ++ s'.queuedActionsToRun
    rw [hs'.submitted, hs'.queuedActionsToRun]
    exact hinOrder
  case running => exact .inr ⟨_, hset, hs'.isRunningActions.trans hbusy, hunderway⟩

/-- The loop ends by an exception, with nothing queued behind its action. -/
theorem raiseException (h : Steady value ended s) {r : RunningAction V C}
    (hrunning : s.running = [r]) (hqueued : s.queuedActionsToRun = [])
    (hvalue : s.currentValue =
      EndedAction.valueAfter value (ended ++ [⟨r.action, !r.phase.isNotifying⟩]))
    (hupToDate : UpToDate s.sequential) :
    Steady value (ended ++ [⟨r.action, !r.phase.isNotifying⟩]) (s.raiseException 0) := by
  have hinOrder := h.inOrder
  rw [hrunning, hqueued] at hinOrder
  constructor
  case inOrder =>
    show s.submitted = _ ++ (s.running.eraseIdx 0).map _ ++ s.queuedActionsToRun
    rw [hinOrder, hrunning, hqueued]
    simp
  case running =>
    refine .inl ⟨?_, rfl, hqueued, hvalue, hupToDate⟩
    show s.running.eraseIdx 0 = []
    rw [hrunning]
    rfl

end Steady

theorem lastSeen_callBack (s : ObservableValue V C T) (callback callback' : C) (v : V)
    (onRegistration : Bool) :
    lastSeen (s.callBack callback v onRegistration).sequential callback' =
      if callback' = callback then some v else lastSeen s.sequential callback' := by
  rw [sequential_callBack]
  unfold lastSeen
  by_cases hsame : callback' = callback
  · simp [hsame]
  · simp [hsame]

theorem upToDate_callBack (h : UpToDate s.sequential) (callback : C) (onRegistration : Bool) :
    UpToDate (s.callBack callback s.currentValue onRegistration).sequential := by
  intro callback' hcallback'
  rw [lastSeen_callBack]
  split
  · rfl
  · exact h callback' hcallback'

/-- With nothing left to do, the action has ended. -/
theorem Underway.of_isOver {now : SequentialValue V C} {r : RunningAction V C}
    (h : Underway value ended now r) (hover : r.phase.isOver = true) :
    now.currentValue = EndedAction.valueAfter value (ended ++ [⟨r.action, false⟩]) ∧
      UpToDate now := by
  obtain ⟨action, phase⟩ := r
  cases phase with
  | dequeued => cases hover
  | registering => cases hover
  | adjusting oldValue => cases hover
  | returned => exact h
  | notifying called remaining =>
    cases called with
    | some callback => cases hover
    | none =>
      obtain rfl : remaining = ∅ := of_decide_eq_true hover
      obtain ⟨hvalue, -, -, hseen⟩ := h
      exact ⟨hvalue, fun callback hcallback =>
        (hseen callback hcallback).mpr (Finset.notMem_empty callback)⟩

omit [DecidableEq C] in
/-- What an exception leaves if no callback is still to be called. -/
theorem Underway.of_raises {now : SequentialValue V C} {r : RunningAction V C}
    (h : Underway value ended now r) (hrunning : r.phase ≠ .returned)
    (hremaining : r.phase.remaining = ∅) :
    now.currentValue =
        EndedAction.valueAfter value (ended ++ [⟨r.action, !r.phase.isNotifying⟩]) ∧
      UpToDate now := by
  obtain ⟨action, phase⟩ := r
  cases phase with
  | returned => exact absurd rfl hrunning
  | notifying called remaining =>
    obtain rfl : remaining = ∅ := hremaining
    obtain ⟨hvalue, -, -, hseen⟩ := h
    exact ⟨hvalue, fun callback hcallback =>
      (hseen callback hcallback).mpr (Finset.notMem_empty callback)⟩
  | dequeued =>
    rw [EndedAction.valueAfter_append_singleton]
    exact h
  | registering =>
    rw [EndedAction.valueAfter_append_singleton]
    exact ⟨h.1, h.2.1⟩
  | adjusting oldValue =>
    rw [EndedAction.valueAfter_append_singleton]
    exact ⟨h.1, h.2.1⟩

namespace Steady

/-- A callback is called with the value that there is. -/
theorem callNext (h : Steady value ended s) {i : ℕ} {callback : C}
    (hstep : s.callNext i callback = some s') : Steady value ended s' := by
  unfold ObservableValue.callNext at hstep
  split at hstep
  case h_2 => cases hstep
  case h_1 action remaining hr =>
    split at hstep
    case isFalse => cases hstep
    case isTrue hmem =>
      obtain ⟨hrunning, rfl, hbusy, hvalue, hupdate, hsubset, hseen⟩ := h.running_eq hr
      obtain rfl := Option.some.inj hstep
      have hpassed : s.passedValue action = s.currentValue := by
        cases action with
        | updateValue v => exact hupdate v rfl
        | _ => rfl
      rw [hpassed]
      refine h.setPhase hrunning hbusy (by constructor <;> rfl) ⟨hvalue, hupdate, ?_, ?_⟩
      · exact (Finset.erase_subset _ _).trans hsubset
      · intro callback' hcallback'
        rw [lastSeen_callBack, Finset.mem_erase]
        by_cases hsame : callback' = callback
        · rw [if_pos hsame]
          exact ⟨fun _ hboth => hboth.1 hsame, fun _ => rfl⟩
        · rw [if_neg hsame]
          refine (hseen callback' hcallback').trans (not_congr ?_)
          exact ⟨fun hleft => ⟨hsame, hleft⟩, And.right⟩

theorem callbackReturns (h : Steady value ended s) {i : ℕ} (hstep : s.callbackReturns i = some s') :
    Steady value ended s' := by
  unfold ObservableValue.callbackReturns at hstep
  split at hstep
  case h_1 callback hr =>
    obtain ⟨hrunning, rfl, hbusy, hvalue, hupToDate, callback', haction, hlast⟩ := h.running_eq hr
    obtain rfl := QueuedAction.watch.inj haction
    obtain rfl := Option.some.inj hstep
    refine h.setPhase hrunning hbusy (by constructor <;> rfl) ⟨?_, ?_⟩
    · rw [EndedAction.valueAfter_append_singleton]
      exact hvalue
    · intro callback' hcallback'
      by_cases hsame : callback' = callback
      · rw [hsame]
        exact hlast
      · apply hupToDate callback'
        have hmem : callback' ∈ (s.callbacks.map (insert callback)).getD ∅ := hcallback'
        show callback' ∈ s.callbacks.getD ∅
        cases hcallbacks : s.callbacks with
        | none =>
          rw [hcallbacks] at hmem
          exact hmem
        | some callbacks =>
          rw [hcallbacks] at hmem
          exact (Finset.mem_insert.mp hmem).resolve_left hsame
  case h_2 called remaining hr =>
    obtain ⟨hrunning, rfl, hbusy, hunderway⟩ := h.running_eq hr
    obtain rfl := Option.some.inj hstep
    exact h.setPhase hrunning hbusy .rfl hunderway
  case h_3 => cases hstep

/-- The next action is taken when the one before it has ended. -/
theorem tryDequeue (h : Steady value ended s) {i : ℕ} (hstep : s.tryDequeue i = some s') :
    Steady value (ended ++ s.running[i]?.toList.map fun r => ⟨r.action, false⟩) s' := by
  unfold ObservableValue.tryDequeue at hstep
  split at hstep
  case h_2 => cases hstep
  case h_1 r hr =>
    rw [hr]
    obtain ⟨hrunning, rfl, hbusy, hunderway⟩ := h.running_eq hr
    split at hstep
    case isFalse => cases hstep
    case isTrue hover =>
      obtain ⟨hvalue, hupToDate⟩ := hunderway.of_isOver hover
      have hinOrder := h.inOrder
      rw [hrunning] at hinOrder
      split at hstep
      case h_1 hqueued =>
        obtain rfl := Option.some.inj hstep
        rw [hqueued] at hinOrder
        constructor
        case inOrder =>
          dsimp only
          rw [hinOrder, hrunning, hqueued]
          simp
        case running =>
          refine .inl ⟨?_, rfl, hqueued, hvalue, hupToDate⟩
          dsimp only
          rw [hrunning]
          rfl
      case h_2 action actions hqueued =>
        obtain rfl := Option.some.inj hstep
        rw [hqueued] at hinOrder
        constructor
        case inOrder =>
          dsimp only
          rw [hinOrder, hrunning]
          simp
        case running =>
          refine .inr ⟨⟨action, .dequeued⟩, ?_, hbusy, hvalue, hupToDate⟩
          dsimp only
          rw [hrunning]
          rfl

end Steady

variable [DecidableEq V]

namespace Steady

/-- An action that assigns a value calls all who watch, unless the value is the same. -/
theorem assignValue (h : Steady value ended s) {r : RunningAction V C}
    (hrunning : s.running = [r]) (hbusy : s.isRunningActions = true)
    (hvalue : s.currentValue = EndedAction.valueAfter value ended)
    (hupToDate : UpToDate s.sequential) {newValue : V}
    (hassign : EndedAction.assign s.currentValue ⟨r.action, false⟩ = newValue)
    (hupdate : ∀ v, r.action = .updateValue v → v = newValue)
    (hraises : ¬ (newValue ≠ s.currentValue ∧ s.sealed = true)) :
    Steady value ended (s.assignValue 0 s.currentValue newValue) := by
  have hafter : newValue = EndedAction.valueAfter value (ended ++ [⟨r.action, false⟩]) := by
    rw [EndedAction.valueAfter_append_singleton, ← hvalue, hassign]
  unfold ObservableValue.assignValue
  split
  case isTrue hsame =>
    exact h.setPhase hrunning hbusy .rfl ⟨hsame.symm.trans hafter, hupToDate⟩
  case isFalse hnew =>
    rw [if_neg fun hsealed => hraises ⟨hnew, hsealed⟩]
    refine h.setPhase hrunning hbusy (by constructor <;> rfl) ⟨hafter, hupdate, ?_, ?_⟩
    · exact Finset.Subset.refl _
    · intro callback hcallback
      have hlast : lastSeen s.sequential callback = some s.currentValue :=
        hupToDate callback hcallback
      constructor
      · intro hseen
        have hboth : some s.currentValue = some newValue := hlast.symm.trans hseen
        exact absurd (Option.some.inj hboth).symm hnew
      · intro hnot
        exact absurd hcallback hnot

/-- A loop begins its action. -/
theorem runAction [DecidableEq T] (h : Steady value ended s) {i : ℕ}
    (hstep : s.runAction i = some s')
    (hraises : s.raisingLoop (.event (.runAction i)) = none) : Steady value ended s' := by
  unfold ObservableValue.runAction at hstep
  split at hstep
  case h_2 => cases hstep
  case h_1 action hr =>
    obtain ⟨hrunning, rfl, hbusy, hvalue, hupToDate⟩ := h.running_eq hr
    cases action with
    | watch callback =>
      obtain rfl := Option.some.inj hstep
      refine h.setPhase hrunning hbusy (by constructor <;> rfl)
        ⟨hvalue, upToDate_callBack hupToDate callback true, callback, rfl, ?_⟩
      rw [lastSeen_callBack, if_pos rfl]
      rfl
    | unwatch callback =>
      obtain rfl := Option.some.inj hstep
      refine h.setPhase hrunning hbusy (by constructor <;> rfl) ⟨?_, ?_⟩
      · rw [EndedAction.valueAfter_append_singleton]
        exact hvalue
      · intro callback' hcallback'
        have hmem : callback' ∈ (s.callbacks.map fun callbacks : Finset C =>
          callbacks.erase callback).getD ∅ := hcallback'
        rw [getD_map_erase] at hmem
        exact hupToDate callback' (Finset.mem_of_mem_erase hmem)
    | updateValue newValue =>
      obtain rfl := Option.some.inj hstep
      refine h.assignValue hrunning hbusy hvalue hupToDate rfl ?_ ?_
      · intro v hv
        exact (QueuedAction.updateValue.inj hv).symm
      · intro hsealed
        have hloop : s.raisingLoop (.event (.runAction 0)) = some 0 := by
          simp only [raisingLoop, hr, if_pos hsealed]
        cases hraises.symm.trans hloop
    | adjustValue adjustment =>
      obtain rfl := Option.some.inj hstep
      exact h.setPhase hrunning hbusy .rfl ⟨hvalue, hupToDate, rfl, adjustment, rfl⟩
    | sealValue =>
      obtain rfl := Option.some.inj hstep
      refine h.setPhase hrunning hbusy (by constructor <;> rfl) ⟨?_, ?_⟩
      · rw [EndedAction.valueAfter_append_singleton]
        exact hvalue
      · intro callback hcallback
        exact absurd hcallback (Finset.notMem_empty callback)

theorem adjustmentReturns [DecidableEq T] (h : Steady value ended s) {i : ℕ}
    (hstep : s.adjustmentReturns i = some s')
    (hraises : s.raisingLoop (.event (.adjustmentReturns i)) = none) : Steady value ended s' := by
  unfold ObservableValue.adjustmentReturns at hstep
  split at hstep
  case h_2 => cases hstep
  case h_1 adjustment oldValue hr =>
    obtain ⟨hrunning, rfl, hbusy, hvalue, hupToDate, rfl, -⟩ := h.running_eq hr
    obtain rfl := Option.some.inj hstep
    refine h.assignValue hrunning hbusy hvalue hupToDate rfl nofun ?_
    intro hsealed
    have hloop : s.raisingLoop (.event (.adjustmentReturns 0)) = some 0 := by
      simp only [raisingLoop, hr]
      exact if_pos hsealed
    cases hraises.symm.trans hloop

/-- No exception ends a loop. -/
theorem step [DecidableEq T] (h : Steady value ended s) {e : Event V C T}
    (hstep : s.step e = some s') (hraises : s.raisingLoop (.event e) = none) :
    Steady value (ended ++ s.endedBy (.event e)) s' := by
  unfold endedBy
  rw [hraises]
  by_cases hloop : e.IsOfLoop
  · cases e with
    | tryDequeue i => exact h.tryDequeue hstep
    | runAction i =>
      rw [List.append_nil]
      exact h.runAction hstep hraises
    | adjustmentReturns i =>
      rw [List.append_nil]
      exact h.adjustmentReturns hstep hraises
    | callNext i callback =>
      rw [List.append_nil]
      exact h.callNext hstep
    | callbackReturns i =>
      rw [List.append_nil]
      exact h.callbackReturns hstep
    | _ => exact hloop.elim
  · have hafter : Steady value ended s' := by
      rcases (step_cases hstep).resolve_left hloop with ⟨u, hsame, rfl | ⟨action, -, rfl⟩⟩
      · exact h.congr hsame
      · exact (h.congr hsame).queueRun action
    cases e with
    | tryDequeue i => exact absurd trivial hloop
    | _ =>
      rw [List.append_nil]
      exact hafter

end Steady

variable [DecidableEq T]

/-- What an event does that ends a loop by an exception. -/
theorem stepRaising_of_raisingLoop {e : RaisingEvent V C T} (hstep : s.stepRaising e = some s')
    {i : ℕ} (hloop : s.raisingLoop e = some i) :
    s' = s.raiseException i ∧ ∃ r, s.running[i]? = some r ∧ r.phase ≠ .returned ∧
      s.endedBy e = [⟨r.action, !r.phase.isNotifying⟩] := by
  have hended {r : RunningAction V C} (hr : s.running[i]? = some r) :
      s.endedBy e = [⟨r.action, !r.phase.isNotifying⟩] := by
    unfold endedBy
    rw [hloop]
    simp [hr]
  cases e with
  | callbackRaises j =>
    obtain rfl := Option.some.inj hloop
    simp only [stepRaising, callbackRaises] at hstep
    split at hstep
    case h_1 action hr =>
      exact ⟨(Option.some.inj hstep).symm, _, hr, (fun hphase => by cases hphase), hended hr⟩
    case h_2 action callback remaining hr =>
      exact ⟨(Option.some.inj hstep).symm, _, hr, (fun hphase => by cases hphase), hended hr⟩
    case h_3 => cases hstep
  | adjustmentRaises j =>
    obtain rfl := Option.some.inj hloop
    simp only [stepRaising, adjustmentRaises] at hstep
    split at hstep
    case h_1 adjustment oldValue hr =>
      exact ⟨(Option.some.inj hstep).symm, _, hr, (fun hphase => by cases hphase), hended hr⟩
    case h_2 => cases hstep
  | event e =>
    unfold raisingLoop at hloop
    split at hloop
    case h_1 hcall => cases hcall
    case h_2 hcall => cases hcall
    case h_3 j heq =>
      obtain rfl := RaisingEvent.event.inj heq
      split at hloop
      case h_2 => cases hloop
      case h_1 newValue hr =>
        split at hloop
        case isFalse => cases hloop
        case isTrue hsealed =>
          obtain rfl := Option.some.inj hloop
          simp only [stepRaising, ObservableValue.step, runAction, hr] at hstep
          refine ⟨?_, _, hr, (fun hphase => by cases hphase), hended hr⟩
          rw [← Option.some.inj hstep, ObservableValue.assignValue, if_neg hsealed.1,
            if_pos hsealed.2]
    case h_4 j heq =>
      obtain rfl := RaisingEvent.event.inj heq
      split at hloop
      case h_2 => cases hloop
      case h_1 adjustment oldValue hr =>
        split at hloop
        case isFalse => cases hloop
        case isTrue hsealed =>
          obtain rfl := Option.some.inj hloop
          simp only [stepRaising, ObservableValue.step, adjustmentReturns, hr] at hstep
          refine ⟨?_, _, hr, (fun hphase => by cases hphase), hended hr⟩
          rw [← Option.some.inj hstep, ObservableValue.assignValue, if_neg hsealed.1,
            if_pos hsealed.2]
    case h_5 => cases hloop

end ObservableValue

/-- An observable value with the actions that have ended, in the order in which they have. -/
structure RaisingValue (V C T : Type*) where
  observable : ObservableValue V C T
  ended : List (EndedAction V C) := []

namespace RaisingValue
variable {V C T : Type*} [DecidableEq V] [DecidableEq C] [DecidableEq T]
open ObservableValue

def machine (value : V) : Machine (RaisingValue V C T) (RaisingEvent V C T) where
  init := { observable := { currentValue := value } }
  step x e := (x.observable.stepRaising e).map fun s => ⟨s, x.ended ++ x.observable.endedBy e⟩

omit [DecidableEq V] [DecidableEq T] in
/-- What is promised of the other actions, whichever of them raise. -/
structure Dependable (value : V) (x : RaisingValue V C T) : Prop where
  /-- The actions are run in the order of their submission, and none is passed over. -/
  inOrder : x.observable.submitted = x.ended.map (·.action) ++
    x.observable.running.map (·.action) ++ x.observable.queuedActionsToRun
  noneLeft : x.observable.running = [] → x.observable.queuedActionsToRun = []
  currentValue : x.observable.running = [] →
    x.observable.currentValue = EndedAction.valueAfter value x.ended
  lastUpdate : x.observable.running = [] → ∀ before newValue after,
    x.ended = before ++ ⟨.updateValue newValue, false⟩ :: after →
    (∀ e ∈ after, ∀ v, EndedAction.assign v e = v) → x.observable.currentValue = newValue
  upToDate : x.observable.running = [] → ∀ callback ∈ x.observable.callbacks.getD ∅,
    (x.observable.seen callback).getLast?.map (·.value) = some x.observable.currentValue

/-- Where the event raises, there is nothing that the loop leaves behind: no action that is queued,
and no callback that is to be called. -/
def LeavesNothing (x : RaisingValue V C T) (e : RaisingEvent V C T) : Prop :=
  ∀ i ∈ x.observable.raisingLoop e, x.observable.queuedActionsToRun = [] ∧
    ∀ r ∈ x.observable.running[i]?, r.phase.remaining = ∅

instance (x : RaisingValue V C T) (e : RaisingEvent V C T) : Decidable (LeavesNothing x e) :=
  inferInstanceAs (Decidable (∀ i ∈ x.observable.raisingLoop e, _ ∧ _))

variable {value : V} {x y : RaisingValue V C T}

omit [DecidableEq V] [DecidableEq T] in
theorem dependable_of_steady (h : Steady value x.ended x.observable) : Dependable value x := by
  have hsettled (hidle : x.observable.running = []) : x.observable.queuedActionsToRun = [] ∧
      x.observable.currentValue = EndedAction.valueAfter value x.ended ∧
      UpToDate x.observable.sequential := by
    rcases h.running with ⟨-, -, hsettled⟩ | ⟨r, hrunning, -⟩
    · exact hsettled
    · rw [hidle] at hrunning
      cases hrunning
  exact
    { inOrder := h.inOrder
      noneLeft := fun hidle => (hsettled hidle).1
      currentValue := fun hidle => (hsettled hidle).2.1
      lastUpdate := fun hidle before newValue after hended hafter => by
        rw [(hsettled hidle).2.1, hended, EndedAction.valueAfter_of_last_update _ _ _ _ hafter]
      upToDate := fun hidle => (hsettled hidle).2.2 }

/-- A step leaves the loops in order if it raises with nothing left behind, or not at all. -/
theorem steady_step (h : Steady value x.ended x.observable) {e : RaisingEvent V C T}
    (hstep : (machine value).step x e = some y) (hleaves : LeavesNothing x e) :
    Steady value y.ended y.observable := by
  obtain ⟨s, hs, rfl⟩ := Option.map_eq_some_iff.mp hstep
  cases hloop : x.observable.raisingLoop e with
  | none =>
    cases e with
    | event e => exact h.step hs hloop
    | callbackRaises i => cases hloop
    | adjustmentRaises i => cases hloop
  | some i =>
    obtain ⟨rfl, r, hr, hphase, hended⟩ := stepRaising_of_raisingLoop hs hloop
    obtain ⟨hqueued, hremaining⟩ := hleaves i hloop
    obtain ⟨hrunning, rfl, -, hunderway⟩ := h.running_eq hr
    obtain ⟨hvalue, hupToDate⟩ := hunderway.of_raises hphase (hremaining r hr)
    show Steady value (x.ended ++ _) _
    rw [hended]
    exact h.raiseException hrunning hqueued hvalue hupToDate

/-- What an exception leaves behind is missing afterwards. -/
theorem leavesNothing_of_dependable (h : Steady value x.ended x.observable) {e : RaisingEvent V C T}
    (hstep : (machine value).step x e = some y) (hy : Dependable value y) : LeavesNothing x e := by
  intro i hloop
  obtain ⟨s, hs, rfl⟩ := Option.map_eq_some_iff.mp hstep
  obtain ⟨rfl, r, hr, -, -⟩ := stepRaising_of_raisingLoop hs hloop
  obtain ⟨hrunning, rfl, -, hunderway⟩ := h.running_eq hr
  have hidle : (x.observable.raiseException 0).running = [] := by
    show x.observable.running.eraseIdx 0 = []
    rw [hrunning]
    rfl
  refine ⟨hy.noneLeft hidle, ?_⟩
  rintro r' hr'
  obtain rfl : r = r' := Option.some.inj (hr.symm.trans hr')
  obtain ⟨action, phase⟩ := r
  cases phase with
  | notifying called remaining =>
    obtain ⟨-, -, hsubset, hseen⟩ := hunderway
    refine Finset.eq_empty_of_forall_notMem fun callback hcallback => ?_
    have hwatching : callback ∈ x.observable.callbacks.getD ∅ := hsubset hcallback
    exact (hseen callback hwatching).mp (hy.upToDate hidle callback hwatching) hcallback
  | _ => rfl

theorem steady_init : Steady value (machine (C := C) (T := T) value).init.ended
    (machine (C := C) (T := T) value).init.observable :=
  ⟨rfl, .inl ⟨rfl, rfl, rfl, rfl, nofun⟩⟩

/-- The other actions are run in order, and their watchers see what they leave, as long as no
exception ends a loop that has an action or a callback left. -/
theorem dependable_iff {tr : History (RaisingValue V C T) (RaisingEvent V C T)}
    (h : (machine value).Run tr) :
    Machine.Always (fun tr => Dependable value ((machine value).last tr)) tr ↔
      Machine.Guarded (fun tr e => LeavesNothing ((machine value).last tr) e) tr := by
  have hsteady {tr} (hrun : (machine value).Run tr)
      (hguarded : Machine.Guarded (fun tr e => LeavesNothing ((machine value).last tr) e) tr) :
      Machine.Always (fun tr => Steady value ((machine (C := C) (T := T) value).last tr).ended
        ((machine (C := C) (T := T) value).last tr).observable) tr :=
    hrun.always_of_guarded steady_init
      (fun _ _ _ _ hbefore hstep hleaves => steady_step hbefore hstep hleaves) hguarded
  constructor
  · intro halways
    induction tr with
    | nil => trivial
    | cons p tr ih =>
      have hguarded := ih h.1 halways.2
      exact ⟨leavesNothing_of_dependable (hsteady h.1 hguarded).last h.2 halways.1, hguarded⟩
  · intro hguarded
    exact (hsteady h hguarded).mono fun _ => dependable_of_steady

/-- The only callback raises, and a later update is seen by it. -/
def raisingAlone : List (RaisingEvent ℕ ℕ ℕ) :=
  [.event (.watchLatestValue 1 none), .event (.runAction 0), .event (.callbackReturns 0),
    .event (.tryDequeue 0), .event (.updateValue 5), .event (.runAction 0), .event (.callNext 0 1),
    .callbackRaises 0, .event (.updateValue 6), .event (.runAction 0), .event (.callNext 0 1),
    .event (.callbackReturns 0), .event (.tryDequeue 0)]

theorem dependable_raisingAlone : ∃ tr, (machine 0).exec raisingAlone = some tr ∧
    ((machine 0).last tr).observable.raised = true ∧
    Machine.Always (fun tr => Dependable 0 ((machine 0).last tr)) tr := by
  have hexec : ((machine 0).exec raisingAlone).map (fun tr =>
      (((machine 0).last tr).observable.raised,
        decide (Machine.Guarded (fun tr e => LeavesNothing ((machine 0).last tr) e) tr))) =
      some (true, true) := by decide +kernel
  obtain ⟨tr, htr, hboth⟩ := Option.map_eq_some_iff.mp hexec
  obtain ⟨hraised, hguarded⟩ := Prod.mk.inj hboth
  exact ⟨tr, htr, hraised,
    (dependable_iff (Machine.run_of_exec htr)).mpr (of_decide_eq_true hguarded)⟩

/-- An update is queued while a callback runs that raises. A later one overtakes it. -/
def overtakenUpdate : List (RaisingEvent ℕ ℕ ℕ) :=
  [.event (.watchLatestValue 1 none), .event (.runAction 0), .event (.callbackReturns 0),
    .event (.tryDequeue 0), .event (.updateValue 5), .event (.runAction 0), .event (.callNext 0 1),
    .event (.updateValue 6), .callbackRaises 0, .event (.updateValue 7), .event (.runAction 0),
    .event (.callNext 0 1), .event (.callbackReturns 0), .event (.tryDequeue 0),
    .event (.runAction 0), .event (.callNext 0 1), .event (.callbackReturns 0),
    .event (.tryDequeue 0)]

theorem not_dependable : ∃ tr : History (RaisingValue ℕ ℕ ℕ) (RaisingEvent ℕ ℕ ℕ),
    (machine 0).Run tr ∧
    ((machine 0).last tr).observable.submitted =
      [.watch 1, .updateValue 5, .updateValue 6, .updateValue 7] ∧
    ((machine 0).last tr).observable.running = [] ∧
    ((machine 0).last tr).observable.queuedActionsToRun = [] ∧
    ((machine 0).last tr).observable.currentValue = 6 ∧
    ¬ Dependable 0 ((machine 0).last tr) := by
  have hexec : ((machine 0).exec overtakenUpdate).map (fun tr =>
      (((machine 0).last tr).observable.submitted, ((machine 0).last tr).observable.running,
        ((machine 0).last tr).observable.queuedActionsToRun,
        ((machine 0).last tr).observable.currentValue,
        ((machine 0).last tr).ended.map (·.action))) =
      some ([.watch 1, .updateValue 5, .updateValue 6, .updateValue 7], [], [], 6,
        [.watch 1, .updateValue 5, .updateValue 7, .updateValue 6]) := by rfl
  obtain ⟨tr, htr, hlast⟩ := Option.map_eq_some_iff.mp hexec
  simp only [Prod.mk.injEq] at hlast
  obtain ⟨hsubmitted, hrunning, hqueued, hvalue, hended⟩ := hlast
  refine ⟨tr, Machine.run_of_exec htr, hsubmitted, hrunning, hqueued, hvalue, fun hdependable => ?_⟩
  have hinOrder := hdependable.inOrder
  rw [hsubmitted, hrunning, hqueued, hended] at hinOrder
  simp at hinOrder

end RaisingValue
end SignalIOS
