import Devstack.Lib.Machine

/-! # Conveyors — what is put in comes out once and in order

    Items are put in at one end, move through any number of buffers and come out at
    the other.  `given` is everything put in so far; `content` is what came out so far
    followed by what is on its way, the oldest first.  Moving an item from a buffer to
    the next leaves `content` alone, so two relations between states cover the steps of
    any such system:

    * `Exact`: what was put in stands at the end of `content`, and nothing else changed;
    * `Lossy`: the same, except that items may have been dropped.

    Both compose, so a step lemma gives the run (`run_lossy`, `run_exact`). -/

namespace DevstackConveyor

open DevstackMachine

/-- What was put into a state, and what came out of it or is on its way. -/
structure Conveyor (σ μ : Type) where
  given : σ → List μ
  content : σ → List μ

namespace Conveyor

variable {σ α μ : Type} (c : Conveyor σ μ)

/-- Something was put in, and some items may be gone. -/
def Lossy (s s' : σ) : Prop :=
  ∃ put, c.given s' = c.given s ++ put ∧ (c.content s').Sublist (c.content s ++ put)

/-- Something was put in, and nothing is gone. -/
def Exact (s s' : σ) : Prop :=
  ∃ put, c.given s' = c.given s ++ put ∧ c.content s' = c.content s ++ put

variable {c}

/-- Losing nothing is losing at most something. -/
theorem Exact.lossy {s s' : σ} (h : c.Exact s s') : c.Lossy s s' := by
  obtain ⟨put, hgiven, hcontent⟩ := h
  exact ⟨put, hgiven, hcontent ▸ List.Sublist.refl _⟩

/-- Nothing came in and nothing was lost. -/
theorem Exact.of_eq {s s' : σ} (hgiven : c.given s' = c.given s)
    (hcontent : c.content s' = c.content s) : c.Exact s s' :=
  ⟨[], hgiven.trans (List.append_nil _).symm, hcontent.trans (List.append_nil _).symm⟩

/-- Nothing came in. -/
theorem Lossy.of_sublist {s s' : σ} (hgiven : c.given s' = c.given s)
    (hcontent : (c.content s').Sublist (c.content s)) : c.Lossy s s' :=
  ⟨[], hgiven.trans (List.append_nil _).symm, (List.append_nil (c.content s)).symm ▸ hcontent⟩

/-- Two steps put in what each of them did. -/
theorem Lossy.trans {s t u : σ} (h : c.Lossy s t) (h' : c.Lossy t u) : c.Lossy s u := by
  obtain ⟨put, hgiven, hcontent⟩ := h
  obtain ⟨put', hgiven', hcontent'⟩ := h'
  refine ⟨put ++ put', ?_, ?_⟩
  · rw [hgiven', hgiven, List.append_assoc]
  · rw [← List.append_assoc]
    exact hcontent'.trans (hcontent.append (List.Sublist.refl put'))

/-- And lose nothing if neither did. -/
theorem Exact.trans {s t u : σ} (h : c.Exact s t) (h' : c.Exact t u) : c.Exact s u := by
  obtain ⟨put, hgiven, hcontent⟩ := h
  obtain ⟨put', hgiven', hcontent'⟩ := h'
  refine ⟨put ++ put', ?_, ?_⟩
  · rw [hgiven', hgiven, List.append_assoc]
  · rw [hcontent', hcontent, List.append_assoc]

/-- What came out and what is on its way stays in the order in which it was put in. -/
theorem Lossy.keeps {s s' : σ} (h : c.Lossy s s') (hs : (c.content s).Sublist (c.given s)) :
    (c.content s').Sublist (c.given s') := by
  obtain ⟨put, hgiven, hcontent⟩ := h
  rw [hgiven]
  exact hcontent.trans (hs.append (List.Sublist.refl put))

/-- Everything that was put in is still there. -/
theorem Exact.keeps {s s' : σ} (h : c.Exact s s') (hs : c.content s = c.given s) :
    c.content s' = c.given s' := by
  obtain ⟨put, hgiven, hcontent⟩ := h
  rw [hgiven, hcontent, hs]

variable {step : σ → α → σ}

/-- **A RUN OF LOSSY STEPS** keeps the order of what is left. -/
theorem run_lossy (hstep : ∀ s a, c.Lossy s (step s a)) :
    ∀ (as : List α) (s : σ), c.Lossy s (run step s as) := by
  intro as
  induction as with
  | nil => intro s; exact (Exact.of_eq rfl rfl).lossy
  | cons a as ih => intro s; exact (hstep s a).trans (ih (step s a))

/-- A run whose steps all meet a guard under which they lose nothing. -/
theorem run_exact {ok : σ → α → Prop} (hstep : ∀ s a, ok s a → c.Exact s (step s a)) :
    ∀ (as : List α) (s : σ), Along step ok s as → c.Exact s (run step s as) := by
  intro as
  induction as with
  | nil => intro s _; exact Exact.of_eq rfl rfl
  | cons a as ih =>
      intro s hok
      exact (hstep s a hok.1).trans (ih (step s a) hok.2)

/-- From an empty conveyor: what came out and what is on its way are items put in, in the
    order in which they were put in, each at most once. -/
theorem Lossy.of_empty {s s' : σ} (h : c.Lossy s s') (hgiven : c.given s = [])
    (hcontent : c.content s = []) : (c.content s').Sublist (c.given s') :=
  h.keeps (hcontent.trans hgiven.symm ▸ List.Sublist.refl _)

theorem Exact.of_empty {s s' : σ} (h : c.Exact s s') (hgiven : c.given s = [])
    (hcontent : c.content s = []) : c.content s' = c.given s' :=
  h.keeps (hcontent.trans hgiven.symm)

end Conveyor

end DevstackConveyor
