import Mathlib.Data.List.Induction

/-! Runs of event-driven machines: histories, invariants along them, and laws that hold
along a run exactly as long as every step of it meets a guard. -/
namespace SignalIOS.Lib

/-- A deterministic machine. `step s e` is `none` where the event `e` cannot occur in `s`. -/
structure Machine (σ ε : Type*) where
  init : σ
  step : σ → ε → Option σ

/-- The events of a run and the states they lead to, newest first. -/
abbrev History (σ ε : Type*) := List (ε × σ)

namespace Machine

variable {σ ε : Type*} (M : Machine σ ε)

/-- The state a history ends in. -/
def last : History σ ε → σ
  | [] => M.init
  | (_, s) :: _ => s

def Run : History σ ε → Prop
  | [] => True
  | (e, s) :: tr => Run tr ∧ M.step (M.last tr) e = some s

/-- `P` holds after every step of the history, and before the first. -/
def Always (P : History σ ε → Prop) : History σ ε → Prop
  | [] => P []
  | p :: tr => P (p :: tr) ∧ Always P tr

/-- Every event of the history meets `G`, which sees the history before the event. -/
def Guarded (G : History σ ε → ε → Prop) : History σ ε → Prop
  | [] => True
  | (e, _) :: tr => G tr e ∧ Guarded G tr

instance decidableGuarded {G : History σ ε → ε → Prop} [∀ tr e, Decidable (G tr e)] :
    ∀ tr : History σ ε, Decidable (Guarded G tr)
  | [] => .isTrue trivial
  | (e, _) :: tr => @instDecidableAnd (G tr e) (Guarded G tr) _ (decidableGuarded tr)

/-- Some event of the history met `E` in the state before it. -/
def Happened (E : σ → ε → Prop) : History σ ε → Prop
  | [] => False
  | (e, _) :: tr => E (M.last tr) e ∨ Happened E tr

/-- The last event of the history met `E` in the state before it. -/
def Latest (E : σ → ε → Prop) : History σ ε → Prop
  | [] => False
  | (e, _) :: tr => E (M.last tr) e

/-- Some state of the history, the initial one included, met `Q`. -/
def Reached (Q : σ → Prop) : History σ ε → Prop
  | [] => Q M.init
  | (_, s) :: tr => Q s ∨ Reached Q tr

/-- The history of a list of events, oldest first, or `none` if one of them cannot occur. -/
def exec (es : List ε) : Option (History σ ε) :=
  es.foldl (fun tr e => tr.bind fun h => (M.step (M.last h) e).map fun s => (e, s) :: h) (some [])

@[simp] theorem last_nil : M.last [] = M.init := rfl

@[simp] theorem last_cons (p : ε × σ) (tr : History σ ε) : M.last (p :: tr) = p.2 := rfl

@[simp] theorem run_nil : M.Run [] := trivial

@[simp] theorem run_cons (e : ε) (s : σ) (tr : History σ ε) :
    M.Run ((e, s) :: tr) ↔ M.Run tr ∧ M.step (M.last tr) e = some s := Iff.rfl

@[simp] theorem happened_nil (E : σ → ε → Prop) : ¬ M.Happened E [] := id

@[simp] theorem happened_cons (E : σ → ε → Prop) (p : ε × σ) (tr : History σ ε) :
    M.Happened E (p :: tr) ↔ E (M.last tr) p.1 ∨ M.Happened E tr := Iff.rfl

@[simp] theorem latest_nil (E : σ → ε → Prop) : ¬ M.Latest E [] := id

@[simp] theorem latest_cons (E : σ → ε → Prop) (p : ε × σ) (tr : History σ ε) :
    M.Latest E (p :: tr) ↔ E (M.last tr) p.1 := Iff.rfl

@[simp] theorem reached_cons (Q : σ → Prop) (p : ε × σ) (tr : History σ ε) :
    M.Reached Q (p :: tr) ↔ Q p.2 ∨ M.Reached Q tr := Iff.rfl

variable {M}

theorem Reached.of_last {Q : σ → Prop} {tr : History σ ε} (h : Q (M.last tr)) : M.Reached Q tr := by
  cases tr with
  | nil => exact h
  | cons p tr => exact .inl h

theorem Reached.of_mem {Q : σ → Prop} {tr : History σ ε} {p : ε × σ} (hp : p ∈ tr) (h : Q p.2) :
    M.Reached Q tr := by
  induction tr with
  | nil => exact absurd hp (List.not_mem_nil)
  | cons p' tr ih =>
    rcases List.mem_cons.mp hp with rfl | hp
    · exact .inl h
    · exact .inr (ih hp)

theorem Always.last {P : History σ ε → Prop} {tr : History σ ε} (h : Always P tr) : P tr := by
  cases tr with
  | nil => exact h
  | cons p tr => exact h.1

theorem Always.mono {P Q : History σ ε → Prop} {tr : History σ ε} (h : Always P tr)
    (hPQ : ∀ tr, P tr → Q tr) : Always Q tr := by
  induction tr with
  | nil => exact hPQ [] h
  | cons p tr ih => exact ⟨hPQ _ h.1, ih h.2⟩

/-- A property of histories that holds at the start and is preserved by every step holds of
every run. -/
theorem Run.invariant {P : History σ ε → Prop} (h0 : P [])
    (hs : ∀ tr e s, M.Run tr → P tr → M.step (M.last tr) e = some s → P ((e, s) :: tr))
    {tr : History σ ε} (h : M.Run tr) : P tr := by
  induction tr with
  | nil => exact h0
  | cons p tr ih => exact hs tr p.1 p.2 h.1 (ih h.1) h.2

/-- The same for a property of states. -/
theorem Run.state_invariant {I : σ → Prop} (h0 : I M.init)
    (hs : ∀ s e s', I s → M.step s e = some s' → I s') {tr : History σ ε} (h : M.Run tr) :
    I (M.last tr) :=
  h.invariant (P := fun tr => I (M.last tr)) h0 fun _ _ _ _ hI hstep => hs _ _ _ hI hstep

/-- An invariant holds in every state of a run. -/
theorem Run.state_invariant_of_mem {I : σ → Prop} (h0 : I M.init)
    (hs : ∀ s e s', I s → M.step s e = some s' → I s') {tr : History σ ε} (h : M.Run tr) :
    ∀ p ∈ tr, I p.2 := by
  induction tr with
  | nil =>
    intro p hp
    cases hp
  | cons first tr ih =>
    intro p hp
    rcases List.mem_cons.mp hp with rfl | hp
    · exact h.state_invariant h0 hs
    · exact ih h.1 p hp

/-- A machine whose steps are matched by those of another one, or by none, runs along a run of that
one. -/
theorem Run.simulate {σ' ε' : Type*} {M' : Machine σ' ε'} {R : σ → σ' → Prop}
    (hinit : R M.init M'.init)
    (hs : ∀ tr e s t, M.Run tr → R (M.last tr) t → M.step (M.last tr) e = some s →
      R s t ∨ ∃ e' t', M'.step t e' = some t' ∧ R s t')
    {tr : History σ ε} (h : M.Run tr) : ∃ tr', M'.Run tr' ∧ R (M.last tr) (M'.last tr') := by
  induction tr with
  | nil => exact ⟨[], trivial, hinit⟩
  | cons p tr ih =>
    obtain ⟨tr', hrun, hlast⟩ := ih h.1
    rcases hs tr p.1 p.2 _ h.1 hlast h.2 with hsame | ⟨e', t', hstep, hnext⟩
    · exact ⟨tr', hrun, hsame⟩
    · exact ⟨(e', t') :: tr', ⟨hrun, hstep⟩, hnext⟩

/-- The same where the other one does what this one does in a part of its state. -/
theorem Run.project {σ' ε' : Type*} {M' : Machine σ' ε'} (f : σ → σ') (hinit : f M.init = M'.init)
    (hs : ∀ s e s', M.step s e = some s' → f s' = f s ∨ ∃ e', M'.step (f s) e' = some (f s'))
    {tr : History σ ε} (h : M.Run tr) : ∃ tr', M'.Run tr' ∧ M'.last tr' = f (M.last tr) := by
  refine h.simulate (R := fun s t => t = f s) hinit.symm ?_
  rintro tr e s _ - rfl hstep
  rcases hs _ _ _ hstep with hsame | ⟨e', hnext⟩
  · exact .inl hsame.symm
  · exact .inr ⟨e', f s, hnext, rfl⟩

/-- What no step undoes is true from the time it first was. -/
theorem Run.of_reached {Q : σ → Prop}
    (hs : ∀ tr e s, M.Run tr → Q (M.last tr) → M.step (M.last tr) e = some s → Q s)
    {tr : History σ ε} (h : M.Run tr) (hQ : M.Reached Q tr) : Q (M.last tr) := by
  induction tr with
  | nil => exact hQ
  | cons p tr ih =>
    rcases hQ with hnow | hbefore
    · exact hnow
    · exact hs tr p.1 p.2 h.1 (ih h.1 hbefore) h.2

section Laws

variable {P : History σ ε → Prop} {G : History σ ε → ε → Prop}

theorem Run.always_of_guarded (h0 : P [])
    (hs : ∀ tr e s, M.Run tr → P tr → M.step (M.last tr) e = some s → G tr e → P ((e, s) :: tr))
    {tr : History σ ε} (h : M.Run tr) (hG : Guarded G tr) : Always P tr := by
  induction tr with
  | nil => exact h0
  | cons p tr ih =>
    have hP : Always P tr := ih h.1 hG.2
    exact ⟨hs tr p.1 p.2 h.1 hP.last h.2 hG.1, hP⟩

/-- Where guarded steps preserve the law and the first step that is not guarded breaks it, the law
holds along a run exactly when every step of the run is guarded. -/
theorem Run.always_iff_guarded_of_guarded (h0 : P [])
    (hs : ∀ tr e s, M.Run tr → Guarded G tr → P tr → M.step (M.last tr) e = some s →
      (P ((e, s) :: tr) ↔ G tr e))
    {tr : History σ ε} (h : M.Run tr) : Always P tr ↔ Guarded G tr := by
  induction tr with
  | nil => exact iff_of_true h0 trivial
  | cons p tr ih =>
    constructor
    · intro hP
      have hG : Guarded G tr := (ih h.1).mp hP.2
      exact ⟨(hs tr p.1 p.2 h.1 hG hP.2.last h.2).mp hP.1, hG⟩
    · intro hG
      have hP : Always P tr := (ih h.1).mpr hG.2
      exact ⟨(hs tr p.1 p.2 h.1 hG.2 hP.last h.2).mpr hG.1, hP⟩

/-- The same, of a law that does not depend on the guard of the steps before. -/
theorem Run.always_iff_guarded (h0 : P [])
    (hs : ∀ tr e s, M.Run tr → P tr → M.step (M.last tr) e = some s →
      (P ((e, s) :: tr) ↔ G tr e))
    {tr : History σ ε} (h : M.Run tr) : Always P tr ↔ Guarded G tr :=
  h.always_iff_guarded_of_guarded h0 fun tr e s hr _ hP hstep => hs tr e s hr hP hstep

/-- A guard that follows from another one, after steps that have met that one. -/
theorem Run.guarded_imp {G' : History σ ε → ε → Prop}
    (hG : ∀ tr e s, M.Run tr → Guarded G tr → M.step (M.last tr) e = some s → G tr e → G' tr e)
    {tr : History σ ε} (h : M.Run tr) (hguarded : Guarded G tr) : Guarded G' tr := by
  induction tr with
  | nil => trivial
  | cons p tr ih => exact ⟨hG tr p.1 p.2 h.1 hguarded.2 h.2 hguarded.1, ih h.1 hguarded.2⟩

/-- What is true at the start, and preserved by guarded steps, is true after a guarded run. -/
theorem Run.of_guarded (h0 : P [])
    (hs : ∀ tr e s, M.Run tr → P tr → M.step (M.last tr) e = some s → G tr e → P ((e, s) :: tr))
    {tr : History σ ε} (h : M.Run tr) (hG : Guarded G tr) : P tr :=
  (h.always_of_guarded h0 hs hG).last

end Laws

theorem Happened.exists_event {E : σ → ε → Prop} {tr : History σ ε} (h : M.Happened E tr) :
    ∃ e ∈ tr.map Prod.fst, ∃ s, E s e := by
  induction tr with
  | nil => exact h.elim
  | cons p tr ih =>
    rcases h with h | h
    · exact ⟨p.1, by simp, _, h⟩
    · obtain ⟨e, he, s, hs⟩ := ih h
      exact ⟨e, by simpa using .inr (by simpa using he), s, hs⟩

theorem exec_append (es : List ε) (e : ε) :
    M.exec (es ++ [e]) =
      (M.exec es).bind fun tr => (M.step (M.last tr) e).map fun s => (e, s) :: tr := by
  simp [exec]

/-- The history of a run of given events has these events, newest first. -/
theorem map_fst_of_exec {es : List ε} {tr : History σ ε} (h : M.exec es = some tr) :
    tr.map Prod.fst = es.reverse := by
  induction es using List.reverseRecOn generalizing tr with
  | nil =>
    obtain rfl : [] = tr := Option.some.inj h
    rfl
  | append_singleton es e ih =>
    rw [exec_append] at h
    obtain ⟨tr', htr', h⟩ := Option.bind_eq_some_iff.mp h
    obtain ⟨s, hs, rfl⟩ := Option.map_eq_some_iff.mp h
    simp [ih htr']

theorem run_of_exec {es : List ε} {tr : History σ ε} (h : M.exec es = some tr) : M.Run tr := by
  induction es using List.reverseRecOn generalizing tr with
  | nil =>
    obtain rfl : [] = tr := Option.some.inj h
    trivial
  | append_singleton es e ih =>
    rw [exec_append] at h
    obtain ⟨tr', htr', h⟩ := Option.bind_eq_some_iff.mp h
    obtain ⟨s, hs, rfl⟩ := Option.map_eq_some_iff.mp h
    exact ⟨ih htr', hs⟩

end Machine
end SignalIOS.Lib
