import Mathlib.Order.Basic
import Mathlib.Data.List.Induction

/-! # Choice — the greatest item of a list by a comparison

    `maxBy` takes the last of the greatest items, as an iterator does that goes on to an
    item it compares no less.  The comparison need not be antisymmetric: items may tie. -/

namespace DevstackChoice

variable {α : Type} (le : α → α → Bool)

/-- The better of two items; of two that tie, the later one. -/
def later (best : Option α) (a : α) : Option α :=
  match best with
  | none => some a
  | some b => if le b a then some a else some b

/-- The last of the greatest. -/
def maxBy (l : List α) : Option α := l.foldl (later le) none

/-- A comparison that `sort_by` and `max_by` may be called with. -/
structure Comparison : Prop where
  trans : ∀ a b c, le a b → le b c → le a c
  total : ∀ a b, le a b || le b a

variable {le}

/-- An item is no worse than itself. -/
theorem Comparison.refl (h : Comparison le) (a : α) : le a a := by
  have := h.total a a
  rwa [Bool.or_self] at this

/-- The last item is compared with the best one before it. -/
theorem maxBy_concat (l : List α) (a : α) : maxBy le (l ++ [a]) = later le (maxBy le l) a := by
  rw [maxBy, List.foldl_append]
  rfl

theorem maxBy_concat_isSome (l : List α) (a : α) : (maxBy le (l ++ [a])).isSome := by
  rw [maxBy_concat]
  cases maxBy le l with
  | none => rfl
  | some b =>
      show (if le b a then some a else some b).isSome = true
      split <;> rfl

/-- Only an empty list has no greatest item. -/
theorem maxBy_eq_none {l : List α} : maxBy le l = none ↔ l = [] := by
  rcases List.eq_nil_or_concat l with rfl | ⟨init, a, rfl⟩
  · exact ⟨fun _ => rfl, fun _ => rfl⟩
  · have hsome : (maxBy le (init ++ [a])).isSome := maxBy_concat_isSome init a
    rw [List.concat_eq_append]
    constructor
    · intro hnone
      rw [hnone] at hsome
      cases hsome
    · intro hnil
      simp at hnil

/-- The chosen item is in the list, and no item is greater. -/
theorem maxBy_spec (h : Comparison le) {l : List α} {m : α} (hm : maxBy le l = some m) :
    m ∈ l ∧ ∀ a ∈ l, le a m := by
  induction l using List.reverseRecOn generalizing m with
  | nil => cases hm
  | append_singleton l a ih =>
      rw [maxBy_concat] at hm
      cases hbest : maxBy le l with
      | none =>
          rw [maxBy_eq_none.mp hbest]
          rw [hbest] at hm
          obtain rfl : a = m := Option.some.inj hm
          refine ⟨List.mem_singleton_self a, fun b hb => ?_⟩
          obtain rfl := List.mem_singleton.mp hb
          exact h.refl b
      | some b =>
          obtain ⟨hmem, hgreatest⟩ := ih hbest
          rw [hbest] at hm
          have hm : (if le b a then some a else some b) = some m := hm
          by_cases hba : le b a
          · rw [if_pos hba] at hm
            obtain rfl : a = m := Option.some.inj hm
            refine ⟨List.mem_append_right l (List.mem_singleton_self a), fun c hc => ?_⟩
            rcases List.mem_append.mp hc with hc | hc
            · exact h.trans c b a (hgreatest c hc) hba
            · obtain rfl := List.mem_singleton.mp hc
              exact h.refl c
          · rw [if_neg hba] at hm
            obtain rfl : b = m := Option.some.inj hm
            refine ⟨List.mem_append_left _ hmem, fun c hc => ?_⟩
            rcases List.mem_append.mp hc with hc | hc
            · exact hgreatest c hc
            · obtain rfl := List.mem_singleton.mp hc
              have htotal := h.total b c
              rw [Bool.or_eq_true] at htotal
              exact htotal.resolve_left hba

end DevstackChoice
