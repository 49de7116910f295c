import Mathlib.Order.Defs.Unbundled

/-! Methods of an object that can raise exceptions. What a method assigned before an exception
stays assigned after it. -/
namespace SignalIOS.Lib

/-- A method of an object of class `σ` that returns an `α` or raises an `ε`. -/
abbrev Method (ε σ α : Type) := ExceptT ε (StateM σ) α

namespace Method

variable {ε σ α β : Type}

/-- Invoked in `s`, the method returns what meets `Q`, or raises what meets `E`. Both see the
object as the method leaves it. -/
def Ensures (x : Method ε σ α) (s : σ) (Q : α → σ → Prop) (E : ε → σ → Prop) : Prop :=
  match x.run.run s with
  | (.ok a, t) => Q a t
  | (.error e, t) => E e t

variable {x : Method ε σ α} {f : α → Method ε σ β} {s : σ} {Q : α → σ → Prop} {R : β → σ → Prop}
  {E : ε → σ → Prop}

@[simp] theorem ensures_pure (a : α) : (pure a : Method ε σ α).Ensures s Q E ↔ Q a s := Iff.rfl

@[simp] theorem ensures_throw (e : ε) : (throw e : Method ε σ α).Ensures s Q E ↔ E e s := Iff.rfl

theorem run_bind (x : Method ε σ α) (f : α → Method ε σ β) (s : σ) :
    (x >>= f).run.run s = match x.run.run s with
      | (.ok a, t) => (f a).run.run t
      | (.error e, t) => (.error e, t) := by
  have hbind : (x >>= f).run.run s = (ExceptT.bindCont f (x.run.run s).1).run (x.run.run s).2 := rfl
  rw [hbind]
  rcases x.run.run s with ⟨a | e, t⟩ <;> rfl

@[simp] theorem ensures_bind :
    (x >>= f).Ensures s R E ↔ x.Ensures s (fun a t => (f a).Ensures t R E) E := by
  simp only [Ensures, run_bind]
  rcases x.run.run s with ⟨e | a, t⟩ <;> rfl

@[simp] theorem ensures_get {Q : σ → σ → Prop} :
    (get : Method ε σ σ).Ensures s Q E ↔ Q s s := Iff.rfl

@[simp] theorem ensures_modify {g : σ → σ} {Q : PUnit → σ → Prop} :
    (modify g : Method ε σ PUnit).Ensures s Q E ↔ Q ⟨⟩ (g s) := Iff.rfl

@[simp] theorem ensures_set {t : σ} {Q : PUnit → σ → Prop} :
    (set t : Method ε σ PUnit).Ensures s Q E ↔ Q ⟨⟩ t := Iff.rfl

/-- The handler sees what was assigned before the exception. -/
theorem run_tryCatch (x : Method ε σ α) (handler : ε → Method ε σ α) (s : σ) :
    (tryCatch x handler).run.run s = match x.run.run s with
      | (.ok a, t) => (.ok a, t)
      | (.error e, t) => (handler e).run.run t := by
  have hcatch : (tryCatch x handler).run.run s =
    ((match (x.run.run s).1 with
      | .ok a => (pure (.ok a) : StateM σ (Except ε α))
      | .error e => (handler e).run).run (x.run.run s).2) := rfl
  rw [hcatch]
  rcases x.run.run s with ⟨e | a, t⟩ <;> rfl

@[simp] theorem ensures_tryCatch {handler : ε → Method ε σ α} :
    (tryCatch x handler).Ensures s Q E ↔ x.Ensures s Q fun e t => (handler e).Ensures t Q E := by
  simp only [Ensures, run_tryCatch]
  rcases x.run.run s with ⟨e | a, t⟩ <;> rfl

/-- Computations that do not touch the object. -/
@[simp] theorem ensures_lift {y : Except ε α} : (liftM y : Method ε σ α).Ensures s Q E ↔
    (∀ a, y = .ok a → Q a s) ∧ ∀ e, y = .error e → E e s := by
  cases y with
  | ok a => exact ⟨fun h => ⟨fun _ ha => (Except.ok.inj ha) ▸ h, nofun⟩, fun h => h.1 a rfl⟩
  | error e => exact ⟨fun h => ⟨nofun, fun _ he => (Except.error.inj he) ▸ h⟩, fun h => h.2 e rfl⟩

theorem Ensures.get_bind {f : σ → Method ε σ β} (h : (f s).Ensures s R E) :
    (get >>= f).Ensures s R E := h

theorem Ensures.modify_bind {g : σ → σ} {f : PUnit → Method ε σ β}
    (h : (f ⟨⟩).Ensures (g s) R E) : (modify g >>= f).Ensures s R E := h

theorem Ensures.lift_bind {y : Except ε α} (hE : ∀ e, y = .error e → E e s)
    (h : ∀ a, y = .ok a → (f a).Ensures s R E) : (liftM y >>= f).Ensures s R E := by
  cases y with
  | ok a => exact h a rfl
  | error e => exact hE e rfl

theorem Ensures.intro (hQ : ∀ a t, Q a t) (hE : ∀ e t, E e t) : x.Ensures s Q E := by
  unfold Ensures
  split
  · exact hQ _ _
  · exact hE _ _

theorem Ensures.mono {Q' : α → σ → Prop} {E' : ε → σ → Prop} (h : x.Ensures s Q E)
    (hQ : ∀ a t, Q a t → Q' a t) (hE : ∀ e t, E e t → E' e t) : x.Ensures s Q' E' := by
  unfold Ensures at *
  split at h
  · exact hQ _ _ h
  · exact hE _ _ h

theorem Ensures.and {Q' : α → σ → Prop} {E' : ε → σ → Prop} (h : x.Ensures s Q E)
    (h' : x.Ensures s Q' E') :
    x.Ensures s (fun a t => Q a t ∧ Q' a t) fun e t => E e t ∧ E' e t := by
  unfold Ensures at *
  split
  · exact ⟨by simpa only [*] using h, by simpa only [*] using h'⟩
  · exact ⟨by simpa only [*] using h, by simpa only [*] using h'⟩

theorem Ensures.of_run_ok (h : x.Ensures s Q E) {a : α} (ha : (x.run.run s).1 = .ok a) :
    Q a (x.run.run s).2 := by
  unfold Ensures at h
  rw [show x.run.run s = (.ok a, (x.run.run s).2) from Prod.ext ha rfl] at h
  exact h

theorem Ensures.of_run_error (h : x.Ensures s Q E) {e : ε} {t : σ}
    (hrun : x.run.run s = (.error e, t)) : E e t := by
  unfold Ensures at h
  rw [hrun] at h
  exact h

theorem Ensures.run_eq {P : Except ε α → σ → Prop} (h : x.Ensures s Q E)
    (hQ : ∀ a t, Q a t → P (.ok a) t) (hE : ∀ e t, E e t → P (.error e) t) :
    P (x.run.run s).1 (x.run.run s).2 := by
  unfold Ensures at h
  generalize x.run.run s = result at *
  rcases result with ⟨e | a, t⟩
  · exact hE e t h
  · exact hQ a t h

/-- A method that never raises returns. -/
theorem Ensures.run_eq_ok (h : x.Ensures s Q fun _ _ => False) :
    ∃ a t, x.run.run s = (.ok a, t) ∧ Q a t := by
  unfold Ensures at h
  split at h
  · exact ⟨_, _, ‹_›, h⟩
  · exact h.elim

/-- However it ends, the method leaves the object such that `I`. -/
abbrev Leaves (x : Method ε σ α) (s : σ) (I : σ → Prop) : Prop :=
  x.Ensures s (fun _ t => I t) fun _ t => I t

theorem Leaves.run {I : σ → Prop} (h : x.Leaves s I) : I (x.run.run s).2 := by
  unfold Leaves Ensures at h
  split at h <;> simp only [*]

theorem run_get (s : σ) : (get : Method ε σ σ).run.run s = (.ok s, s) := rfl

theorem run_set (s t : σ) : (set t : Method ε σ PUnit).run.run s = (.ok ⟨⟩, t) := rfl

theorem run_modify (g : σ → σ) (s : σ) :
    (modify g : Method ε σ PUnit).run.run s = (.ok ⟨⟩, g s) := rfl

theorem run_pure (a : α) (s : σ) : (pure a : Method ε σ α).run.run s = (.ok a, s) := rfl

theorem run_lift (y : Except ε α) (s : σ) : (liftM y : Method ε σ α).run.run s = (y, s) := by
  cases y <;> rfl

/-- A method of a part of the object. -/
def onPart {τ : Type} (part : σ → τ) (replace : σ → τ → σ) (x : Method ε τ α) : Method ε σ α :=
  ExceptT.mk fun s =>
    let (result, left) := x.run.run (part s)
    (result, replace s left)

theorem run_onPart {τ : Type} (part : σ → τ) (replace : σ → τ → σ) (x : Method ε τ α) (s : σ) :
    (onPart part replace x).run.run s =
      ((x.run.run (part s)).1, replace s (x.run.run (part s)).2) := rfl

@[simp] theorem ensures_onPart {τ : Type} {part : σ → τ} {replace : σ → τ → σ} {x : Method ε τ α} :
    (onPart part replace x).Ensures s Q E ↔
      x.Ensures (part s) (fun a t => Q a (replace s t)) fun e t => E e (replace s t) := by
  unfold Ensures
  rw [run_onPart]
  rcases x.run.run (part s) with ⟨e | a, t⟩ <;> rfl

theorem Ensures.of_run_eq {a : α} {t : σ} (hrun : x.run.run s = (.ok a, t)) (h : Q a t) :
    x.Ensures s Q E := by
  unfold Ensures
  rw [hrun]
  exact h

/-- However the method ends, `φ` is as before. -/
def Fixes {τ : Type} (φ : σ → τ) (x : Method ε σ α) : Prop := ∀ s, x.Leaves s fun t => φ t = φ s

section
variable {τ : Type} {φ : σ → τ}

theorem Fixes.pure (a : α) : Fixes φ (pure a : Method ε σ α) := fun _ => rfl

theorem Fixes.get : Fixes φ (get : Method ε σ σ) := fun _ => rfl

theorem Fixes.modify {g : σ → σ} (h : ∀ s, φ (g s) = φ s) :
    Fixes φ (modify g : Method ε σ PUnit) := h

theorem Fixes.lift (y : Except ε α) : Fixes φ (liftM y : Method ε σ α) := by
  intro s
  cases y <;> rfl

theorem Fixes.onPart {ρ : Type} {part : σ → ρ} {replace : σ → ρ → σ} (x : Method ε ρ α)
    (h : ∀ s r, φ (replace s r) = φ s) : Fixes φ (onPart part replace x) := by
  intro s
  rw [Leaves, ensures_onPart]
  exact .intro (fun _ t => h s t) fun _ t => h s t

theorem Fixes.bind (hx : Fixes φ x) (hf : ∀ a, Fixes φ (f a)) : Fixes φ (x >>= f) := by
  intro s
  rw [Leaves, ensures_bind]
  apply (hx s).mono
  · intro a t ht
    apply (hf a t).mono
    · intro _ u hu
      exact hu.trans ht
    · intro _ u hu
      exact hu.trans ht
  · intro _ t ht
    exact ht

theorem Fixes.ite {c : Prop} [Decidable c] {y : Method ε σ α} (hx : Fixes φ x) (hy : Fixes φ y) :
    Fixes φ (if c then x else y) := by
  split
  · exact hx
  · exact hy

end

/-- However the method ends, it has gone a way that `R` allows. -/
def Goes (R : σ → σ → Prop) (x : Method ε σ α) : Prop := ∀ s, x.Leaves s (R s)

section
variable {R : σ → σ → Prop}

theorem Goes.pure [Std.Refl R] (a : α) : Goes R (pure a : Method ε σ α) := fun s =>
  Std.Refl.refl s

theorem Goes.get [Std.Refl R] : Goes R (get : Method ε σ σ) := fun s => Std.Refl.refl s

theorem Goes.modify {g : σ → σ} (h : ∀ s, R s (g s)) : Goes R (modify g : Method ε σ PUnit) := h

theorem Goes.lift [Std.Refl R] (y : Except ε α) : Goes R (liftM y : Method ε σ α) := by
  intro s
  cases y
  all_goals exact Std.Refl.refl s

theorem Leaves.bind_goes [IsTrans σ R] (hx : x.Leaves s (R s)) (hf : ∀ a, Goes R (f a)) :
    (x >>= f).Leaves s (R s) := by
  rw [Leaves, ensures_bind]
  apply hx.mono
  · intro a t ht
    apply (hf a t).mono
    · exact fun _ u hu => IsTrans.trans s t u ht hu
    · exact fun _ u hu => IsTrans.trans s t u ht hu
  · exact fun _ t ht => ht

theorem Goes.bind [IsTrans σ R] (hx : Goes R x) (hf : ∀ a, Goes R (f a)) : Goes R (x >>= f) :=
  fun s => Leaves.bind_goes (hx s) hf

/-- What follows knows the object as it is. -/
theorem Goes.get_bind {f : σ → Method ε σ β} (h : ∀ s, (f s).Leaves s (R s)) :
    Goes R ((MonadState.get : Method ε σ σ) >>= f) := fun s => Ensures.get_bind (h s)

theorem Goes.ite {c : Prop} [Decidable c] {y : Method ε σ α} (hx : Goes R x) (hy : Goes R y) :
    Goes R (if c then x else y) := by
  split
  · exact hx
  · exact hy

end

/-- The methods are invoked one after the other, whether or not an earlier one has raised. -/
def runAll : List (Method ε σ α) → σ → List (Except ε α) × σ
  | [], s => ([], s)
  | x :: xs, s =>
    let result := x.run.run s
    let rest := runAll xs result.2
    (result.1 :: rest.1, rest.2)

@[simp] theorem runAll_nil (s : σ) : runAll ([] : List (Method ε σ α)) s = ([], s) := rfl

@[simp] theorem runAll_cons (x : Method ε σ α) (xs : List (Method ε σ α)) (s : σ) :
    runAll (x :: xs) s =
      ((x.run.run s).1 :: (runAll xs (x.run.run s).2).1, (runAll xs (x.run.run s).2).2) := rfl

/-- Invocations that leave the object as it is can be left out. The others return what they
return with them, and leave the same object. -/
theorem runAll_filter {I : σ → Prop} {f : β → Method ε σ α} {keep : β → Bool}
    (hI : ∀ b s, I s → I ((f b).run.run s).2)
    (hskip : ∀ b s, I s → keep b = false → ((f b).run.run s).2 = s) (bs : List β) {s : σ}
    (hs : I s) :
    ((bs.zip (runAll (bs.map f) s).1).filter fun r => keep r.1).map Prod.snd =
        (runAll ((bs.filter keep).map f) s).1 ∧
      (runAll (bs.map f) s).2 = (runAll ((bs.filter keep).map f) s).2 := by
  induction bs generalizing s with
  | nil => exact ⟨rfl, rfl⟩
  | cons b bs ih =>
    rw [List.map_cons, runAll_cons]
    cases hkeep : keep b with
    | true =>
      obtain ⟨hresults, hstate⟩ := ih (hI b s hs)
      constructor
      · simp only [List.zip_cons_cons, List.filter_cons, hkeep, if_true, List.map_cons, runAll_cons,
          hresults]
      · simp only [List.filter_cons, hkeep, if_true, List.map_cons, runAll_cons, hstate]
    | false =>
      rw [hskip b s hs hkeep]
      obtain ⟨hresults, hstate⟩ := ih hs
      constructor
      · simp only [List.zip_cons_cons, List.filter_cons, hkeep, Bool.false_eq_true, if_false,
          hresults]
      · simp only [List.filter_cons, hkeep, Bool.false_eq_true, if_false, hstate]

/-- Invoked in `s` and in `t`, the methods return or raise the same, and leave what `R` relates. -/
def Agree (x y : Method ε σ α) (s t : σ) (R : σ → σ → Prop) : Prop :=
  (x.run.run s).1 = (y.run.run t).1 ∧ R (x.run.run s).2 (y.run.run t).2

section
variable {g : α → Method ε σ β} {t : σ} {R : σ → σ → Prop}

theorem Agree.pure {a : α} (h : R s t) : Agree (pure a) (pure a : Method ε σ α) s t R := ⟨rfl, h⟩

theorem Agree.get_bind {f g : σ → Method ε σ β} (h : Agree (f s) (g t) s t R) :
    Agree (get >>= f) (get >>= g) s t R := h

theorem Agree.modify_bind {m n : σ → σ} {f g : PUnit → Method ε σ β}
    (h : Agree (f ⟨⟩) (g ⟨⟩) (m s) (n t) R) : Agree (modify m >>= f) (modify n >>= g) s t R := h

/-- The same computation, that does not touch the object. -/
theorem Agree.lift_bind {y : Except ε α} (hR : R s t)
    (h : ∀ a, y = .ok a → Agree (f a) (g a) s t R) :
    Agree (liftM y >>= f) (liftM y >>= g) s t R := by
  cases y with
  | ok a => exact h a rfl
  | error e => exact ⟨rfl, hR⟩

theorem Agree.tryCatch {x y : Method ε σ α} {handler : ε → Method ε σ α}
    (h : Agree x y s t R) (hcatch : ∀ e s t, R s t → Agree (handler e) (handler e) s t R) :
    Agree (tryCatch x handler) (tryCatch y handler) s t R := by
  obtain ⟨hresult, hleft⟩ := h
  unfold Agree
  rw [run_tryCatch, run_tryCatch]
  rcases hx : x.run.run s with ⟨e | a, s'⟩ <;> rcases hy : y.run.run t with ⟨e' | a', t'⟩ <;>
    rw [hx, hy] at hresult hleft
  · obtain rfl := Except.error.inj hresult
    exact hcatch e s' t' hleft
  · cases hresult
  · cases hresult
  · exact ⟨hresult, hleft⟩

end

end Method
end SignalIOS.Lib
