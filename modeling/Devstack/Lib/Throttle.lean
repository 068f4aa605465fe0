import Mathlib.Logic.Function.Basic
import Mathlib.Data.List.Basic

/-! # Throttles — at most one call of a key within a window

    A throttle keeps the time of the last call it admitted for each key, and admits a
    call if none of its key was admitted within the window before it.  Over calls whose
    times do not go back: the calls admitted for a key are a window apart (`spaced`), and
    every call has an admitted one of its key within the window (`covered`). -/

namespace DevstackThrottle

variable {κ : Type} (window : ℕ)

def admits (last : κ → Option ℕ) (k : κ) (now : ℕ) : Bool :=
  match last k with
  | none => true
  | some previous => !decide (now - previous < window)

/-- The calls that are admitted. -/
def admitted [DecidableEq κ] : (κ → Option ℕ) → List (κ × ℕ) → List (κ × ℕ)
  | _, [] => []
  | last, call :: calls =>
      if admits window last call.1 call.2 then
        call :: admitted (Function.update last call.1 (some call.2)) calls
      else admitted last calls

variable {window}

theorem admits_none {last : κ → Option ℕ} {k : κ} (h : last k = none) (now : ℕ) :
    admits window last k now = true := by
  rw [admits, h]

theorem admits_some {last : κ → Option ℕ} {k : κ} {previous : ℕ} (h : last k = some previous)
    (now : ℕ) : admits window last k now = true ↔ window ≤ now - previous := by
  rw [admits, h]
  simp

/-- The times of the calls do not go back. -/
abbrev InTime (calls : List (κ × ℕ)) : Prop := calls.Pairwise (fun a b => a.2 ≤ b.2)

variable [DecidableEq κ]

/-- After an admitted call the next of its key is a window later. -/
theorem admitted_later {last : κ → Option ℕ} {calls : List (κ × ℕ)} {k : κ} {previous : ℕ}
    (hlast : last k = some previous) (htime : InTime calls)
    (hle : ∀ call ∈ calls, previous ≤ call.2) :
    ∀ call ∈ admitted window last calls, call.1 = k → previous + window ≤ call.2 := by
  induction calls generalizing last previous with
  | nil =>
      intro call hcall
      cases hcall
  | cons first calls ih =>
      obtain ⟨hfirst, hrest⟩ := List.pairwise_cons.mp htime
      have hnow : previous ≤ first.2 := hle first List.mem_cons_self
      intro call hcall hkey
      rw [admitted] at hcall
      split at hcall
      next hadmits =>
        by_cases hsame : first.1 = k
        · have hwindow : previous + window ≤ first.2 := by
            have := (admits_some (by rw [hsame, hlast]) first.2).mp hadmits
            omega
          rcases List.mem_cons.mp hcall with rfl | hcall
          · exact hwindow
          · have := ih (by rw [← hsame, Function.update_self]) hrest hfirst call hcall hkey
            omega
        · rcases List.mem_cons.mp hcall with rfl | hcall
          · exact absurd hkey hsame
          · refine ih ?_ hrest (fun c hc => hle c (List.mem_cons_of_mem first hc)) call hcall hkey
            rw [Function.update_of_ne (Ne.symm hsame), hlast]
      next =>
        exact ih hlast hrest (fun c hc => hle c (List.mem_cons_of_mem first hc)) call hcall hkey

variable (window) in
/-- The admitted calls of one key are a window apart. -/
theorem spaced (last : κ → Option ℕ) {calls : List (κ × ℕ)} (htime : InTime calls) :
    (admitted window last calls).Pairwise (fun a b => b.1 = a.1 → a.2 + window ≤ b.2) := by
  induction calls generalizing last with
  | nil => exact List.Pairwise.nil
  | cons first calls ih =>
      obtain ⟨hfirst, hrest⟩ := List.pairwise_cons.mp htime
      rw [admitted]
      split
      · refine List.pairwise_cons.mpr ⟨?_, ih _ hrest⟩
        exact admitted_later (Function.update_self _ _ _) hrest hfirst
      · exact ih _ hrest

/-- Every call has an admitted one of its key within the window before it, be it one from
    before the calls. -/
theorem covered (hwindow : 0 < window) (last : κ → Option ℕ) {calls : List (κ × ℕ)}
    (htime : InTime calls) :
    ∀ call ∈ calls,
      (∃ previous, last call.1 = some previous ∧ call.2 < previous + window)
        ∨ ∃ c ∈ admitted window last calls,
            c.1 = call.1 ∧ c.2 ≤ call.2 ∧ call.2 < c.2 + window := by
  induction calls generalizing last with
  | nil =>
      intro call hcall
      cases hcall
  | cons first calls ih =>
      obtain ⟨hfirst, hrest⟩ := List.pairwise_cons.mp htime
      intro call hcall
      rw [admitted]
      by_cases hadmits : admits window last first.1 first.2 = true
      · rw [if_pos hadmits]
        rcases List.mem_cons.mp hcall with rfl | hcall
        · exact Or.inr ⟨call, List.mem_cons_self, rfl, Nat.le_refl _, by omega⟩
        · rcases ih (Function.update last first.1 (some first.2)) hrest call hcall with
            ⟨previous, hlast, hlt⟩ | ⟨c, hc, hkey, hle, hlt⟩
          · by_cases hsame : call.1 = first.1
            · rw [hsame, Function.update_self] at hlast
              obtain rfl := Option.some.inj hlast
              exact Or.inr ⟨first, List.mem_cons_self, hsame.symm, hfirst call hcall, hlt⟩
            · rw [Function.update_of_ne hsame] at hlast
              exact Or.inl ⟨previous, hlast, hlt⟩
          · exact Or.inr ⟨c, List.mem_cons_of_mem first hc, hkey, hle, hlt⟩
      · rw [if_neg hadmits]
        rcases List.mem_cons.mp hcall with rfl | hcall
        · cases hlast : last call.1 with
          | none => exact absurd (admits_none hlast call.2) hadmits
          | some previous =>
              rw [admits_some hlast] at hadmits
              exact Or.inl ⟨previous, rfl, by omega⟩
        · exact ih last hrest call hcall

end DevstackThrottle
