import Mathlib.Data.List.Basic
import Mathlib.Data.List.Nodup
import Mathlib.Algebra.GroupWithZero.Nat

/-! # Worklists — the least set closed under successors

    A worklist search takes a node from the front of a queue; a node it has not
    seen joins the seen ones, and its successors join the queue.  `Following` is
    what each step keeps, and with an empty queue it says that the seen nodes are
    the least closed set with the targets (`following_done`).

    `work` falls with every step, however the edges are shared or repeated: a
    node pays for its successors when it is seen, and only once. -/

namespace DevstackClosure

variable {α : Type}

/-- A set with the targets and, for each node, the node's successors. -/
structure Closed (succ : α → List α) (targets : List α) (S : α → Prop) : Prop where
  targets : ∀ v ∈ targets, S v
  succs : ∀ v, S v → ∀ w ∈ succ v, S w

/-- What a search from the targets keeps. -/
structure Following (succ : α → List α) (targets seen queue : List α) : Prop where
  started : ∀ v ∈ targets, v ∈ seen ∨ v ∈ queue
  followed : ∀ v ∈ seen, ∀ w ∈ succ v, w ∈ seen ∨ w ∈ queue
  least : ∀ S, Closed succ targets S → ∀ v, v ∈ seen ∨ v ∈ queue → S v

section Steps

variable {succ : α → List α} {targets seen queue : List α} {v : α}

theorem following_start : Following succ targets [] targets where
  started := fun _ hv => .inr hv
  followed := fun _ hv => nomatch hv
  least := by
    intro S hS v hv
    exact hS.targets v (hv.resolve_left List.not_mem_nil)

/-- A node that was seen before leaves the queue. -/
theorem following_skip (h : Following succ targets seen (v :: queue)) (hv : v ∈ seen) :
    Following succ targets seen queue := by
  have hmove : ∀ w, w ∈ seen ∨ w ∈ v :: queue → w ∈ seen ∨ w ∈ queue := by
    intro w hw
    rcases hw with hw | hw
    · exact .inl hw
    · rcases List.mem_cons.mp hw with rfl | hw
      · exact .inl hv
      · exact .inr hw
  refine ⟨?_, ?_, ?_⟩
  · intro w hw
    exact hmove w (h.started w hw)
  · intro w hw u hu
    exact hmove u (h.followed w hw u hu)
  · intro S hS w hw
    exact h.least S hS w (hw.imp_right (List.mem_cons_of_mem v))

/-- A new node is seen, and its successors are queued. -/
theorem following_take (h : Following succ targets seen (v :: queue)) :
    Following succ targets (seen ++ [v]) (queue ++ succ v) := by
  have hmove : ∀ w, w ∈ seen ∨ w ∈ v :: queue → w ∈ seen ++ [v] ∨ w ∈ queue ++ succ v := by
    intro w hw
    rcases hw with hw | hw
    · exact .inl (List.mem_append_left _ hw)
    · rcases List.mem_cons.mp hw with rfl | hw
      · exact .inl (List.mem_append_right _ List.mem_cons_self)
      · exact .inr (List.mem_append_left _ hw)
  refine ⟨?_, ?_, ?_⟩
  · intro w hw
    exact hmove w (h.started w hw)
  · intro w hw u hu
    rcases List.mem_append.mp hw with hw | hw
    · exact hmove u (h.followed w hw u hu)
    · rw [List.mem_singleton] at hw
      subst hw
      exact .inr (List.mem_append_right _ hu)
  · intro S hS w hw
    have hv : S v := h.least S hS v (.inr List.mem_cons_self)
    rcases hw with hw | hw
    · rcases List.mem_append.mp hw with hw | hw
      · exact h.least S hS w (.inl hw)
      · rw [List.mem_singleton] at hw
        subst hw
        exact hv
    · rcases List.mem_append.mp hw with hw | hw
      · exact h.least S hS w (.inr (List.mem_cons_of_mem v hw))
      · exact hS.succs v hv w hw

/-- **A SEARCH ENDS WITH THE LEAST CLOSED SET**. -/
theorem following_done (h : Following succ targets seen []) :
    Closed succ targets (· ∈ seen) ∧ ∀ S, Closed succ targets S → ∀ v ∈ seen, S v := by
  refine ⟨⟨?_, ?_⟩, ?_⟩
  · intro v hv
    exact (h.started v hv).resolve_right List.not_mem_nil
  · intro v hv w hw
    exact (h.followed v hv w hw).resolve_right List.not_mem_nil
  · intro S hS v hv
    exact h.least S hS v (.inl hv)

end Steps

/-! ## Termination -/

section Work

variable [DecidableEq α]

/-- The steps that are still to come: what is queued and what new nodes will queue. -/
def work (succ : α → List α) (nodes seen queue : List α) : Nat :=
  queue.length + ((nodes.filter (· ∉ seen)).map (fun v => (succ v).length)).sum

variable {succ : α → List α} {nodes seen queue : List α} {v : α}

theorem work_skip : work succ nodes seen queue < work succ nodes seen (v :: queue) := by
  rw [work, work, List.length_cons]
  omega

/-- A node pays for its successors when it is seen. -/
theorem sum_filter_take (hnodup : nodes.Nodup) (hv : v ∈ nodes) (hnew : v ∉ seen)
    (cost : α → Nat) :
    ((nodes.filter (· ∉ seen ++ [v])).map cost).sum + cost v
      = ((nodes.filter (· ∉ seen)).map cost).sum := by
  induction nodes with
  | nil => exact nomatch hv
  | cons u nodes ih =>
      obtain ⟨hu, hnodup⟩ := List.nodup_cons.mp hnodup
      by_cases huv : u = v
      · subst huv
        have hrest : nodes.filter (· ∉ seen ++ [u]) = nodes.filter (· ∉ seen) := by
          refine List.filter_congr ?_
          intro w hw
          have hne : w ≠ u := fun he => hu (he ▸ hw)
          simp [hne]
        rw [List.filter_cons_of_neg (by simp), List.filter_cons_of_pos (by simpa using hnew),
          hrest, List.map_cons, List.sum_cons, Nat.add_comm]
      · have hv : v ∈ nodes := (List.mem_cons.mp hv).resolve_left (Ne.symm huv)
        have hrest := ih hnodup hv
        by_cases hseen : u ∈ seen
        · rw [List.filter_cons_of_neg (by simp [hseen]), List.filter_cons_of_neg (by simp [hseen])]
          exact hrest
        · rw [List.filter_cons_of_pos (by simp [hseen, huv]),
            List.filter_cons_of_pos (by simpa using hseen), List.map_cons, List.map_cons,
            List.sum_cons, List.sum_cons, ← hrest, Nat.add_assoc]

theorem work_take (hnodup : nodes.Nodup) (hv : v ∈ nodes) (hnew : v ∉ seen) :
    work succ nodes (seen ++ [v]) (queue ++ succ v) < work succ nodes seen (v :: queue) := by
  have hsum := sum_filter_take hnodup hv hnew (fun w => (succ w).length)
  rw [work, work, List.length_append, List.length_cons]
  omega

end Work

end DevstackClosure
