import Mathlib.Logic.Basic

/-! # Machines — runs, invariants and guarded runs

    A machine is a total one-step function `step : σ → α → σ`; what the outside
    world decides at a step is part of the action `α`.  A run is a list of
    actions.  Two induction rules carry everything built on top:

    * `run_invariant`: what every step keeps, every run keeps;
    * `guarded_invariant`: what every step keeps *when its guard holds*, every
      run keeps whose steps all meet the guard.

    `Along` says that a property of (state, action) pairs holds at every step of
    a run; a guard is such a property, so a claim "exactly the guarded runs are
    good" is an equivalence between two `Along`s. -/

namespace DevstackMachine

variable {σ α : Type} (step : σ → α → σ)

/-- The state after a list of actions. -/
def run : σ → List α → σ
  | s, [] => s
  | s, a :: as => run (step s a) as

@[simp] theorem run_nil (s : σ) : run step s [] = s := rfl

@[simp] theorem run_cons (s : σ) (a : α) (as : List α) :
    run step s (a :: as) = run step (step s a) as := rfl

theorem run_append (s : σ) (as bs : List α) :
    run step s (as ++ bs) = run step (run step s as) bs := by
  induction as generalizing s with
  | nil => rfl
  | cons a as ih => exact ih (step s a)

/-- A property of (state, action) pairs at every step of a run. -/
def Along (P : σ → α → Prop) : σ → List α → Prop
  | _, [] => True
  | s, a :: as => P s a ∧ Along P (step s a) as

@[simp] theorem along_nil (P : σ → α → Prop) (s : σ) : Along step P s [] := trivial

@[simp] theorem along_cons (P : σ → α → Prop) (s : σ) (a : α) (as : List α) :
    Along step P s (a :: as) ↔ P s a ∧ Along step P (step s a) as := Iff.rfl

instance decidableAlong {P : σ → α → Prop} [∀ s a, Decidable (P s a)] :
    ∀ (s : σ) (as : List α), Decidable (Along step P s as)
  | _, [] => .isTrue trivial
  | s, a :: as =>
      @instDecidableAnd _ _ inferInstance (decidableAlong (step s a) as)

theorem along_append (P : σ → α → Prop) (s : σ) (as bs : List α) :
    Along step P s (as ++ bs) ↔ Along step P s as ∧ Along step P (run step s as) bs := by
  induction as generalizing s with
  | nil => exact ⟨fun h => ⟨trivial, h⟩, fun h => h.2⟩
  | cons a as ih =>
      rw [List.cons_append, along_cons, along_cons, ih (step s a), run_cons, and_assoc]

/-- A property of the actions alone. -/
theorem along_of_forall {P : α → Prop} {as : List α} (h : ∀ a ∈ as, P a) (s : σ) :
    Along step (fun _ a => P a) s as := by
  induction as generalizing s with
  | nil => trivial
  | cons a as ih =>
      exact ⟨h a List.mem_cons_self, ih (fun b hb => h b (List.mem_cons_of_mem a hb)) (step s a)⟩

theorem along_and {P Q : σ → α → Prop} {s : σ} {as : List α} (hp : Along step P s as)
    (hq : Along step Q s as) : Along step (fun s a => P s a ∧ Q s a) s as := by
  induction as generalizing s with
  | nil => trivial
  | cons a as ih => exact ⟨⟨hp.1, hq.1⟩, ih hp.2 hq.2⟩

theorem along_mono {P Q : σ → α → Prop} (h : ∀ s a, P s a → Q s a) {s : σ} {as : List α}
    (hp : Along step P s as) : Along step Q s as := by
  induction as generalizing s with
  | nil => trivial
  | cons a as ih => exact ⟨h s a hp.1, ih hp.2⟩

/-- What every step keeps, every run keeps. -/
theorem run_invariant {Inv : σ → Prop} (hstep : ∀ s a, Inv s → Inv (step s a)) :
    ∀ (as : List α) (s : σ), Inv s → Inv (run step s as) := by
  intro as
  induction as with
  | nil => intro s h; exact h
  | cons a as ih => intro s h; exact ih (step s a) (hstep s a h)

/-- What every step keeps under its guard, every guarded run keeps. -/
theorem guarded_invariant {Inv : σ → Prop} {ok : σ → α → Prop}
    (hstep : ∀ s a, Inv s → ok s a → Inv (step s a)) :
    ∀ (as : List α) (s : σ), Inv s → Along step ok s as → Inv (run step s as) := by
  intro as
  induction as with
  | nil => intro s h _; exact h
  | cons a as ih =>
      intro s h hok
      exact ih (step s a) (hstep s a h hok.1) hok.2

/-- What holds of a step in a state with the invariant and under its guard holds
    along every guarded run. -/
theorem along_of_guarded {Inv : σ → Prop} {ok P : σ → α → Prop}
    (hstep : ∀ s a, Inv s → ok s a → Inv (step s a))
    (hgood : ∀ s a, Inv s → ok s a → P s a) :
    ∀ (as : List α) (s : σ), Inv s → Along step ok s as → Along step P s as := by
  intro as
  induction as with
  | nil => intro s _ _; trivial
  | cons a as ih =>
      rintro s h ⟨hok, hrest⟩
      exact ⟨hgood s a h hok, ih (step s a) (hstep s a h hok) hrest⟩

/-- Two step properties that agree under an invariant kept by the good steps
    hold along the same runs. -/
theorem along_congr {Inv : σ → Prop} {P Q : σ → α → Prop}
    (hiff : ∀ s a, Inv s → (P s a ↔ Q s a))
    (hstep : ∀ s a, Inv s → P s a → Inv (step s a)) :
    ∀ (as : List α) (s : σ), Inv s → (Along step P s as ↔ Along step Q s as) := by
  intro as
  induction as with
  | nil => intro s _; exact Iff.rfl
  | cons a as ih =>
      intro s h
      rw [along_cons, along_cons]
      constructor
      · rintro ⟨hp, hrest⟩
        exact ⟨(hiff s a h).mp hp, (ih (step s a) (hstep s a h hp)).mp hrest⟩
      · rintro ⟨hq, hrest⟩
        have hp : P s a := (hiff s a h).mpr hq
        exact ⟨hp, (ih (step s a) (hstep s a h hp)).mpr hrest⟩

end DevstackMachine
