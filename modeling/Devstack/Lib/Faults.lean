import Mathlib.Logic.Basic

/-! # Programs with faults — stopped before any of their steps

    A program over a state runs in steps; a fault stops it before one of them
    and leaves the state as the earlier steps made it.  How many steps are left
    until the fault is given from outside (`none`: there is no fault), so what
    holds for every such number holds wherever the program stops.

    `Spec E P m Q` is the triple: from a state with `P` the program ends in a
    state with `Q`, or is stopped in a state with `E`.  `Total` programs end
    when there is no fault. -/

namespace DevstackFaults

/-- From the steps left and a state: the result, if the program was not stopped,
    the steps left now, and the state. -/
def Faulty (σ α : Type) : Type := Option Nat → σ → Option α × Option Nat × σ

variable {σ α β : Type}

instance : Monad (Faulty σ) where
  pure a := fun left s => (some a, left, s)
  bind m f := fun left s =>
    match m left s with
    | (some a, left, s) => f a left s
    | (none, left, s) => (none, left, s)

/-- One step. -/
def act (f : σ → σ) : Faulty σ Unit := fun left s =>
  match left with
  | none => (some (), none, f s)
  | some 0 => (none, some 0, s)
  | some (n + 1) => (some (), some n, f s)

/-- Reading the state, which cannot fail. -/
def read : Faulty σ σ := fun left s => (some s, left, s)

/-- The state a program leaves. -/
def leaves (m : Faulty σ α) (left : Option Nat) (s : σ) : σ := (m left s).2.2

/-! ## Triples -/

def Spec (E P : σ → Prop) (m : Faulty σ α) (Q : α → σ → Prop) : Prop :=
  ∀ left s, P s →
    match m left s with
    | (some a, _, s') => Q a s'
    | (none, _, s') => E s'

variable {E P P' : σ → Prop} {Q Q' : α → σ → Prop}

theorem spec_pure {a : α} (h : ∀ s, P s → Q a s) : Spec E P (pure a) Q :=
  fun _ s hs => h s hs

theorem spec_bind {m : Faulty σ α} {f : α → Faulty σ β} {R : β → σ → Prop}
    (hm : Spec E P m Q) (hf : ∀ a, Spec E (Q a) (f a) R) : Spec E P (m >>= f) R := by
  intro left s hs
  have hfirst := hm left s hs
  show match (match m left s with
    | (some a, left, s) => f a left s
    | (none, left, s) => (none, left, s)) with
    | (some b, _, s') => R b s'
    | (none, _, s') => E s'
  rcases hrun : m left s with ⟨a | a, left', s'⟩
  · rw [hrun] at hfirst
    exact hfirst
  · rw [hrun] at hfirst
    exact hf a left' s' hfirst

/-- A step may be stopped before it changes the state. -/
theorem spec_act {f : σ → σ} {R : Unit → σ → Prop} (hstop : ∀ s, P s → E s)
    (hdone : ∀ s, P s → R () (f s)) : Spec E P (act f) R := by
  rintro (_ | _ | n) s hs
  · exact hdone s hs
  · exact hstop s hs
  · exact hdone s hs

theorem spec_read {R : σ → σ → Prop} (h : ∀ s, P s → R s s) : Spec E P read R :=
  fun _ s hs => h s hs

theorem spec_conseq {m : Faulty σ α} (h : Spec E P m Q) (hP : ∀ s, P' s → P s)
    (hQ : ∀ a s, Q a s → Q' a s) : Spec E P' m Q' := by
  intro left s hs
  have hrun := h left s (hP s hs)
  rcases heq : m left s with ⟨a | a, left', s'⟩
  · rw [heq] at hrun; exact hrun
  · rw [heq] at hrun; exact hQ a s' hrun

/-- A triple from every single state. -/
theorem spec_state {m : Faulty σ α} (h : ∀ s, P s → Spec E (fun s' => s' = s) m Q) :
    Spec E P m Q :=
  fun left s hs => h s hs left s rfl

/-- A choice between programs. -/
theorem spec_ite {c : Prop} [Decidable c] {m m' : Faulty σ α} (hm : c → Spec E P m Q)
    (hm' : ¬ c → Spec E P m' Q) : Spec E P (if c then m else m') Q := by
  by_cases hc : c
  · rw [if_pos hc]; exact hm hc
  · rw [if_neg hc]; exact hm' hc

/-- Wherever it stops, a program leaves a state with what both ends imply. -/
theorem Spec.leaves {m : Faulty σ α} {R : σ → Prop} (h : Spec E P m Q) (hE : ∀ s, E s → R s)
    (hQ : ∀ a s, Q a s → R s) (left : Option Nat) {s : σ} (hs : P s) : R (leaves m left s) := by
  have hrun := h left s hs
  rw [DevstackFaults.leaves]
  rcases heq : m left s with ⟨a | a, left', s'⟩
  · rw [heq] at hrun; exact hE s' hrun
  · rw [heq] at hrun; exact hQ a s' hrun

/-! ## Runs without a fault -/

/-- Without a fault the program takes `s` to `s'` with the result `a`. -/
def Runs (m : Faulty σ α) (s : σ) (a : α) (s' : σ) : Prop := m none s = (some a, none, s')

theorem runs_bind {m : Faulty σ α} {f : α → Faulty σ β} {s s' s'' : σ} {a : α} {b : β}
    (hm : Runs m s a s') (hf : Runs (f a) s' b s'') : Runs (m >>= f) s b s'' := by
  show (match m none s with
    | (some a, left, s) => f a left s
    | (none, left, s) => (none, left, s)) = _
  rw [show m none s = _ from hm]
  exact hf

/-- Without a fault the program ends. -/
def Total (m : Faulty σ α) : Prop := ∀ s, ∃ a s', Runs m s a s'

theorem total_pure (a : α) : Total (pure a : Faulty σ α) := fun s => ⟨a, s, rfl⟩

theorem total_bind {m : Faulty σ α} {f : α → Faulty σ β} (hm : Total m)
    (hf : ∀ a, Total (f a)) : Total (m >>= f) := by
  intro s
  obtain ⟨a, s', hfirst⟩ := hm s
  obtain ⟨b, s'', hsecond⟩ := hf a s'
  exact ⟨b, s'', runs_bind hfirst hsecond⟩

theorem total_act (f : σ → σ) : Total (act f) := fun s => ⟨(), f s, rfl⟩

theorem total_read : Total (read : Faulty σ σ) := fun s => ⟨s, s, rfl⟩

theorem total_ite {c : Prop} [Decidable c] {m m' : Faulty σ α} (hm : Total m) (hm' : Total m') :
    Total (if c then m else m') := by
  by_cases hc : c
  · rw [if_pos hc]; exact hm
  · rw [if_neg hc]; exact hm'

theorem Runs.leaves {m : Faulty σ α} {s s' : σ} {a : α} (h : Runs m s a s') :
    leaves m none s = s' := by
  rw [DevstackFaults.leaves, show m none s = _ from h]

/-- Without a fault a total program leaves a state with its postcondition. -/
theorem Spec.completes {m : Faulty σ α} (h : Spec E P m Q) (htotal : Total m) {s : σ}
    (hs : P s) : ∃ a, Q a (DevstackFaults.leaves m none s) := by
  obtain ⟨a, s', hruns⟩ := htotal s
  have hrun := h none s hs
  rw [show m none s = _ from hruns] at hrun
  rw [hruns.leaves]
  exact ⟨a, hrun⟩

end DevstackFaults
