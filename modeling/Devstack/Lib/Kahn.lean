import Mathlib.Data.Fintype.Card
import Mathlib.Data.List.Nodup
import Mathlib.Data.List.Perm.Subperm
import Mathlib.Data.Set.Finite.List
import Mathlib.Logic.Function.Basic
import Mathlib.Logic.Relation

/-! # Kahn's algorithm — sorting by counting open predecessors

    A node waits until all its predecessors are in the result.  `degree v` is
    the number of predecessor occurrences still open; visiting a node lowers the
    degree of each of its dependents once for each edge, and a node whose degree
    reaches zero joins the queue.

    `sorted_loop` is the invariant of the whole run; its part `ordered` says that
    every node of the result comes after its predecessors.  The run ends with an
    empty queue (`loop_empties`), and it leaves no node out exactly if the
    predecessors have no cycle (`complete_iff_acyclic`). -/

namespace DevstackKahn

variable {α : Type} [DecidableEq α]

/-- The degrees, the queue and the result. -/
structure Sorter (α : Type) where
  degree : α → Nat
  queue : List α
  result : List α

/-- One edge to `v` is closed. -/
def relax (s : Sorter α) (v : α) : Sorter α :=
  let degree := s.degree v - 1
  { s with
    degree := Function.update s.degree v degree
    queue := if degree = 0 then s.queue ++ [v] else s.queue }

/-- The front of the queue moves to the result, and its edges are closed. -/
def visit (dependents : α → List α) (s : Sorter α) : Sorter α :=
  match s.queue with
  | [] => s
  | u :: queue => (dependents u).foldl relax { s with queue := queue, result := s.result ++ [u] }

def loop (dependents : α → List α) : Nat → Sorter α → Sorter α
  | 0, s => s
  | fuel + 1, s => if s.queue = [] then s else loop dependents fuel (visit dependents s)

/-- The predecessor occurrences of `v` that are not in the result yet. -/
def owed (preds : α → List α) (result : List α) (v : α) : Nat :=
  ((preds v).filter (· ∉ result)).length

/-- What Kahn's algorithm keeps. -/
structure Sorted (nodes : List α) (preds : α → List α) (s : Sorter α) : Prop where
  nodup : (s.result ++ s.queue).Nodup
  subset : ∀ v ∈ s.result ++ s.queue, v ∈ nodes
  degree : ∀ v ∈ nodes, s.degree v = owed preds s.result v
  queued : ∀ v ∈ nodes, v ∈ s.result ++ s.queue ↔ s.degree v = 0
  ordered : ∀ xs v ys, s.result = xs ++ v :: ys → ∀ p ∈ preds v, p ∈ xs

/-- The edges, seen from both ends. -/
structure Edges (nodes : List α) (preds dependents : α → List α) : Prop where
  predsIn : ∀ v ∈ nodes, ∀ p ∈ preds v, p ∈ nodes
  dependentsIn : ∀ u ∈ nodes, ∀ v ∈ dependents u, v ∈ nodes
  count : ∀ u ∈ nodes, ∀ v ∈ nodes, (dependents u).count v = (preds v).count u

section Invariant

variable {nodes : List α} {preds dependents : α → List α}

theorem owed_eq_zero {result : List α} {v : α} :
    owed preds result v = 0 ↔ ∀ p ∈ preds v, p ∈ result := by
  simp [owed, List.filter_eq_nil_iff]

/-- A node that joins the result closes its own occurrences. -/
theorem owed_append {result : List α} {u : α} (hu : u ∉ result) (v : α) :
    owed preds result v = owed preds (result ++ [u]) v + (preds v).count u := by
  rw [owed, owed]
  induction preds v with
  | nil => rfl
  | cons p ps ih =>
      rw [List.filter_cons, List.filter_cons, List.count_cons]
      by_cases hp : p = u
      · have hin : ¬ decide (p ∉ result ++ [u]) = true := by simp [hp]
        have hout : decide (p ∉ result) = true := by simpa [hp] using hu
        rw [if_pos hout, if_neg hin, List.length_cons, ih, if_pos (beq_iff_eq.mpr hp)]
        omega
      · rw [if_neg (fun he => hp (beq_iff_eq.mp he)), Nat.add_zero]
        by_cases hr : p ∈ result
        · rw [if_neg (by simpa using hr), if_neg (by simp [hr]), ih]
        · rw [if_pos (by simpa using hr), if_pos (by simp [hr, hp]), List.length_cons,
            List.length_cons, ih]
          omega

/-- What the loop over one node's edges keeps: `target` are the degrees after it. -/
structure Relaxing (nodes : List α) (target : α → Nat) (edges : List α) (s : Sorter α) : Prop where
  nodup : (s.result ++ s.queue).Nodup
  subset : ∀ v ∈ s.result ++ s.queue, v ∈ nodes
  degree : ∀ v ∈ nodes, s.degree v = target v + edges.count v
  queued : ∀ v ∈ nodes, v ∈ s.result ++ s.queue ↔ s.degree v = 0

/-- The degree that an edge lowers counts the edge. -/
theorem relaxing_degree {target : α → Nat} {v : α} {edges : List α} {s : Sorter α}
    (hv : v ∈ nodes) (h : Relaxing nodes target (v :: edges) s) :
    s.degree v = target v + (edges.count v + 1) := by
  rw [h.degree v hv, List.count_cons_self]

theorem relaxing_relax {target : α → Nat} {v : α} {edges : List α} {s : Sorter α}
    (hv : v ∈ nodes) (h : Relaxing nodes target (v :: edges) s) :
    Relaxing nodes target edges (relax s v) := by
  have hdeg := relaxing_degree hv h
  have hout : v ∉ s.result ++ s.queue := by
    intro hmem
    have hzero := (h.queued v hv).mp hmem
    omega
  have hnew : s.degree v - 1 = target v + edges.count v := by omega
  have hother : ∀ w ∈ nodes, w ≠ v → s.degree w = target w + edges.count w := by
    intro w hw hne
    rw [h.degree w hw, List.count_cons_of_ne (Ne.symm hne)]
  by_cases hzero : s.degree v - 1 = 0
  · have hrelax : relax s v
        = ⟨Function.update s.degree v (s.degree v - 1), s.queue ++ [v], s.result⟩ := by
      simp only [relax, if_pos hzero]
    rw [hrelax]
    have hmem : ∀ w, w ∈ s.result ++ (s.queue ++ [v]) ↔ w ∈ s.result ++ s.queue ∨ w = v := by
      intro w
      rw [← List.append_assoc, List.mem_append, List.mem_singleton]
    refine ⟨?_, ?_, ?_, ?_⟩
    · show (s.result ++ (s.queue ++ [v])).Nodup
      rw [← List.append_assoc]
      refine List.nodup_append.mpr ⟨h.nodup, List.pairwise_singleton _ _, ?_⟩
      intro a ha b hb hab
      rw [List.mem_singleton.mp hb] at hab
      exact hout (hab ▸ ha)
    · intro w hw
      rcases (hmem w).mp hw with hw | rfl
      · exact h.subset w hw
      · exact hv
    · intro w hw
      by_cases hwv : w = v
      · subst hwv; simp [hnew]
      · simp [hwv, hother w hw hwv]
    · intro w hw
      refine (hmem w).trans ?_
      by_cases hwv : w = v
      · subst hwv; simp [hzero]
      · simp [hwv, ← h.queued w hw]
  · have hrelax : relax s v
        = ⟨Function.update s.degree v (s.degree v - 1), s.queue, s.result⟩ := by
      simp only [relax, if_neg hzero]
    rw [hrelax]
    refine ⟨h.nodup, h.subset, ?_, ?_⟩
    · intro w hw
      by_cases hwv : w = v
      · subst hwv; simp [hnew]
      · simp [hwv, hother w hw hwv]
    · intro w hw
      by_cases hwv : w = v
      · subst hwv
        simp only [Function.update_self]
        exact ⟨fun hm => absurd hm hout, fun hz => absurd hz hzero⟩
      · simp [hwv, ← h.queued w hw]

theorem relaxing_foldl {target : α → Nat} {edges : List α} {s : Sorter α}
    (hedges : ∀ v ∈ edges, v ∈ nodes) (h : Relaxing nodes target edges s) :
    Relaxing nodes target [] (edges.foldl relax s) := by
  induction edges generalizing s with
  | nil => exact h
  | cons v edges ih =>
      have hstep := relaxing_relax (hedges v List.mem_cons_self) h
      exact ih (fun w hw => hedges w (List.mem_cons_of_mem v hw)) hstep

/-- Closing edges adds nothing to the result. -/
theorem foldl_relax_result (edges : List α) (s : Sorter α) :
    (edges.foldl relax s).result = s.result := by
  induction edges generalizing s with
  | nil => rfl
  | cons v edges ih => exact ih (relax s v)

theorem visit_result {u : α} {queue : List α} {s : Sorter α} (hq : s.queue = u :: queue) :
    (visit dependents s).result = s.result ++ [u] := by
  rw [visit, hq]
  exact foldl_relax_result _ _

/-- Visiting a node keeps the invariant. -/
theorem sorted_visit (hedges : Edges nodes preds dependents) {s : Sorter α}
    (h : Sorted nodes preds s) : Sorted nodes preds (visit dependents s) := by
  cases hq : s.queue with
  | nil => rw [visit, hq]; exact h
  | cons u queue =>
      have hu : u ∈ nodes := h.subset u (by rw [hq]; simp)
      have hnodup : (s.result ++ [u] ++ queue).Nodup := by
        have := h.nodup
        rw [hq] at this
        simpa using this
      have hufresh : u ∉ s.result := by
        intro hmem
        have hdis := (List.nodup_append.mp (List.nodup_append.mp hnodup).1).2.2
        exact hdis u hmem u (List.mem_singleton.mpr rfl) rfl
      have hsame : ∀ v, v ∈ s.result ++ [u] ++ queue ↔ v ∈ s.result ++ s.queue := by
        intro v; rw [hq]; simp
      have hstart : Relaxing nodes (owed preds (s.result ++ [u])) (dependents u)
          ⟨s.degree, queue, s.result ++ [u]⟩ :=
        ⟨hnodup, fun v hv => h.subset v ((hsame v).mp hv),
          fun v hv => by
            show s.degree v = _
            rw [h.degree v hv, owed_append hufresh, ← hedges.count u hu v hv],
          fun v hv => (hsame v).trans (h.queued v hv)⟩
      have hdone := relaxing_foldl (hedges.dependentsIn u hu) hstart
      have hres : (visit dependents s).result = s.result ++ [u] := visit_result hq
      have hvisit : visit dependents s
          = (dependents u).foldl relax ⟨s.degree, queue, s.result ++ [u]⟩ := by
        rw [visit, hq]
      rw [hvisit] at hres ⊢
      refine ⟨hdone.nodup, hdone.subset, ?_, hdone.queued, ?_⟩
      · intro v hv
        rw [hres]
        exact hdone.degree v hv
      · intro xs v ys heq p hp
        rw [hres] at heq
        rcases List.eq_nil_or_concat ys with hys | ⟨ys', y, hys⟩
        · -- the visited node itself: its degree was zero
          subst hys
          obtain ⟨hxs, hv⟩ := List.append_inj' heq rfl
          have huv : u = v := by simpa using hv
          have hzero : s.degree u = 0 := (h.queued u hu).mp (by rw [hq]; simp)
          rw [h.degree u hu] at hzero
          rw [← hxs]
          exact owed_eq_zero.mp hzero p (huv ▸ hp)
        · rw [hys, List.concat_eq_append, ← List.cons_append, ← List.append_assoc] at heq
          obtain ⟨hrest, -⟩ := List.append_inj' heq rfl
          exact h.ordered xs v ys' hrest p hp

/-- **KAHN'S INVARIANT**, over the whole run. -/
theorem sorted_loop (hedges : Edges nodes preds dependents) (fuel : Nat) {s : Sorter α}
    (h : Sorted nodes preds s) : Sorted nodes preds (loop dependents fuel s) := by
  induction fuel generalizing s with
  | zero => exact h
  | succ fuel ih =>
      rw [loop]
      split
      · exact h
      · exact ih (sorted_visit hedges h)

/-- The start: every node waits for its predecessors, and those without any are queued. -/
theorem sorted_start (hnodup : nodes.Nodup) (degree : α → Nat)
    (hdegree : ∀ v ∈ nodes, degree v = (preds v).length) :
    Sorted nodes preds ⟨degree, nodes.filter (fun v => degree v = 0), []⟩ := by
  refine ⟨?_, ?_, ?_, ?_, ?_⟩
  · exact hnodup.filter _
  · intro v hv
    exact List.mem_of_mem_filter hv
  · intro v hv
    simp [owed, hdegree v hv]
  · intro v hv
    simp [hv]
  · intro xs v ys heq
    exact absurd heq.symm (by simp)

/-! ## The end of the run -/

theorem length_le (h : Sorted nodes preds s) :
    s.result.length + s.queue.length ≤ nodes.length := by
  rw [← List.length_append]
  exact (List.subperm_of_subset h.nodup h.subset).length_le

/-- **EVERY NODE IS VISITED AT MOST ONCE**: as many rounds as there are nodes empty the
    queue. -/
theorem loop_empties (hedges : Edges nodes preds dependents) (fuel : Nat) {s : Sorter α}
    (h : Sorted nodes preds s) (hfuel : nodes.length ≤ s.result.length + fuel) :
    (loop dependents fuel s).queue = [] := by
  induction fuel generalizing s with
  | zero =>
      have hle := length_le h
      have hzero : s.queue.length = 0 := by omega
      exact List.length_eq_zero_iff.mp hzero
  | succ fuel ih =>
      rw [loop]
      split
      · next hq => exact hq
      · next hq =>
          obtain ⟨u, queue, hq⟩ := List.exists_cons_of_ne_nil hq
          refine ih (sorted_visit hedges h) ?_
          rw [visit_result hq, List.length_append, List.length_singleton]
          omega

/-- No node precedes itself, directly or along others. -/
def Acyclic (preds : α → List α) : Prop :=
  ∀ v, ¬ Relation.TransGen (fun a b => b ∈ preds a) v v

omit [DecidableEq α] in
/-- Nodes that all wait for one another wait on a cycle. -/
theorem not_acyclic_of_waiting {waiting : List α} (hne : waiting ≠ [])
    (hwait : ∀ v ∈ waiting, ∃ p ∈ preds v, p ∈ waiting) : ¬ Acyclic preds := by
  intro hacyclic
  let precedes : {v // v ∈ waiting} → {v // v ∈ waiting} → Prop :=
    fun a b => Relation.TransGen (fun a b => b ∈ preds a) b.1 a.1
  have : Finite {v // v ∈ waiting} := List.finite_toSet waiting
  have : IsTrans _ precedes := ⟨fun _ _ _ hab hbc => hbc.trans hab⟩
  have : Std.Irrefl precedes := ⟨fun a => hacyclic a.1⟩
  have hwf : WellFounded precedes := Finite.wellFounded_of_trans_of_irrefl precedes
  obtain ⟨v, hv⟩ := List.exists_mem_of_ne_nil waiting hne
  obtain ⟨least, -, hleast⟩ := hwf.has_min Set.univ ⟨⟨v, hv⟩, trivial⟩
  obtain ⟨p, hp, hin⟩ := hwait least.1 least.2
  exact hleast ⟨p, hin⟩ trivial (Relation.TransGen.single hp)

/-- In the result a predecessor has a smaller place. -/
theorem idxOf_lt (h : Sorted nodes preds s) {v p : α} (hv : v ∈ s.result) (hp : p ∈ preds v) :
    s.result.idxOf p < s.result.idxOf v := by
  obtain ⟨xs, ys, heq, hfresh⟩ := List.eq_append_cons_of_mem hv
  have hbefore : p ∈ xs := h.ordered xs v ys heq p hp
  rw [heq, List.idxOf_append_of_mem hbefore, List.idxOf_append_of_notMem hfresh,
    List.idxOf_cons_self, Nat.add_zero]
  exact List.idxOf_lt_length_of_mem hbefore

/-- **A CYCLE IS WHAT KEEPS NODES OUT**: with an empty queue, the result has every node
    exactly if there is no cycle. -/
theorem complete_iff_acyclic (hedges : Edges nodes preds dependents)
    (hpreds : ∀ v, preds v ≠ [] → v ∈ nodes) (h : Sorted nodes preds s) (hqueue : s.queue = []) :
    (∀ v ∈ nodes, v ∈ s.result) ↔ Acyclic preds := by
  constructor
  · intro hall v hcycle
    have hlt : ∀ a b, Relation.TransGen (fun a b => b ∈ preds a) a b →
        s.result.idxOf b < s.result.idxOf a := by
      intro a b hab
      have hin : ∀ a b, b ∈ preds a → a ∈ s.result := fun a b hb =>
        hall a (hpreds a (List.ne_nil_of_mem hb))
      induction hab with
      | single hb => exact idxOf_lt h (hin _ _ hb) hb
      | tail _ hb ih => exact (idxOf_lt h (hin _ _ hb) hb).trans ih
    exact Nat.lt_irrefl _ (hlt v v hcycle)
  · intro hacyclic
    by_contra hleft
    push Not at hleft
    obtain ⟨v, hv, hvout⟩ := hleft
    let waiting := nodes.filter (fun v => v ∉ s.result)
    have hmem : ∀ v, v ∈ waiting ↔ v ∈ nodes ∧ v ∉ s.result := by
      intro v
      simp [waiting]
    refine not_acyclic_of_waiting (List.ne_nil_of_mem ((hmem v).mpr ⟨hv, hvout⟩)) ?_ hacyclic
    -- a node that never left still owes a predecessor, which never left either
    intro w hw
    obtain ⟨hw, hwout⟩ := (hmem w).mp hw
    have howed : ¬ owed preds s.result w = 0 := by
      intro hzero
      have hqueued := (h.queued w hw).mpr ((h.degree w hw).trans hzero)
      rw [hqueue, List.append_nil] at hqueued
      exact hwout hqueued
    rw [owed_eq_zero] at howed
    push Not at howed
    obtain ⟨p, hp, hpout⟩ := howed
    exact ⟨p, hp, (hmem p).mpr ⟨hedges.predsIn w hw p hp, hpout⟩⟩

end Invariant

end DevstackKahn
