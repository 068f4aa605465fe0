import Devstack.Lib.Machine
import Mathlib.Algebra.GroupWithZero.Nat

/-! # Interleaving — tasks over a shared world

    A task steps against the world and is replaced by the tasks it becomes: by
    itself at its next point of suspension, by the tasks it spawned, by nothing
    when it ends.  A schedule is a list of (position, answer) pairs; a position
    without a task does nothing.

    `schedule_rely` is the rule for properties of single tasks: if the step of a
    task with the property gives tasks with the property and does not take the
    property from any other task, every schedule keeps it. -/

namespace DevstackInterleaving

open DevstackMachine

variable {ω τ ε : Type} (step : ε → ω → τ → ω × List τ)

/-- Step the task at position `i`. -/
def stepAt (s : ω × List τ) (a : Nat × ε) : ω × List τ :=
  match s.2[a.1]? with
  | some t =>
      let next := step a.2 s.1 t
      (next.1, s.2.take a.1 ++ next.2 ++ s.2.drop (a.1 + 1))
  | none => s

theorem stepAt_some {s : ω × List τ} {a : Nat × ε} {t : τ} (h : s.2[a.1]? = some t) :
    stepAt step s a
      = ((step a.2 s.1 t).1,
          s.2.take a.1 ++ (step a.2 s.1 t).2 ++ s.2.drop (a.1 + 1)) := by
  rw [stepAt, h]

theorem stepAt_none {s : ω × List τ} {a : Nat × ε} (h : s.2[a.1]? = none) :
    stepAt step s a = s := by
  rw [stepAt, h]

/-- A task that becomes one task keeps its position. -/
theorem stepAt_one {s : ω × List τ} {a : Nat × ε} {t t' : τ} {w : ω} (h : s.2[a.1]? = some t)
    (hstep : step a.2 s.1 t = (w, [t'])) : stepAt step s a = (w, s.2.set a.1 t') := by
  obtain ⟨hlt, -⟩ := List.getElem?_eq_some_iff.mp h
  rw [stepAt_some step h, hstep, List.set_eq_take_append_cons_drop, if_pos hlt, List.append_assoc]
  rfl

/-- The tasks of a pool are the one at a position and the others. -/
theorem mem_iff_eraseIdx {l : List τ} {i : Nat} {t t' : τ} (h : l[i]? = some t) :
    t' ∈ l ↔ t' = t ∨ t' ∈ l.eraseIdx i := by
  obtain ⟨hlt, hget⟩ := List.getElem?_eq_some_iff.mp h
  have hsplit : l = l.take i ++ t :: l.drop (i + 1) := by
    rw [← hget, List.getElem_cons_drop, List.take_append_drop]
  rw [List.eraseIdx_eq_take_drop_succ]
  constructor
  · intro hmem
    rw [hsplit] at hmem
    rcases List.mem_append.mp hmem with hmem | hmem
    · exact Or.inr (List.mem_append_left _ hmem)
    · rcases List.mem_cons.mp hmem with heq | hmem
      · exact Or.inl heq
      · exact Or.inr (List.mem_append_right _ hmem)
  · rintro (rfl | hmem)
    · exact List.mem_of_getElem? h
    · rcases List.mem_append.mp hmem with hmem | hmem
      · exact List.mem_of_mem_take hmem
      · exact List.mem_of_mem_drop hmem

/-- After a step there are the tasks the stepping one became, and the others. -/
theorem mem_stepAt_iff {s : ω × List τ} {a : Nat × ε} {t t' : τ} (h : s.2[a.1]? = some t) :
    t' ∈ (stepAt step s a).2 ↔ t' ∈ (step a.2 s.1 t).2 ∨ t' ∈ s.2.eraseIdx a.1 := by
  rw [stepAt_some step h, List.eraseIdx_eq_take_drop_succ]
  simp only [List.mem_append]
  constructor
  · rintro ((hmem | hmem) | hmem)
    · exact Or.inr (Or.inl hmem)
    · exact Or.inl hmem
    · exact Or.inr (Or.inr hmem)
  · rintro (hmem | hmem | hmem)
    · exact Or.inl (Or.inr hmem)
    · exact Or.inl (Or.inl hmem)
    · exact Or.inr hmem

/-- A task after a step is one the stepping task became, or an old one. -/
theorem mem_stepAt {s : ω × List τ} {a : Nat × ε} {t t' : τ} (h : s.2[a.1]? = some t)
    (hmem : t' ∈ (stepAt step s a).2) : t' ∈ (step a.2 s.1 t).2 ∨ t' ∈ s.2 := by
  rcases (mem_stepAt_iff step h).mp hmem with hmem | hmem
  · exact Or.inl hmem
  · exact Or.inr ((mem_iff_eraseIdx h).mpr (Or.inr hmem))

/-- The keys of a pool are those of the task at a position and of the others. -/
theorem filterMap_split {κ : Type} (key : τ → Option κ) {l : List τ} {i : Nat} {t : τ}
    (h : l[i]? = some t) :
    l.filterMap key
      = (l.take i).filterMap key ++ (key t).toList ++ (l.drop (i + 1)).filterMap key := by
  obtain ⟨hlt, hget⟩ := List.getElem?_eq_some_iff.mp h
  have hsplit : l = l.take i ++ [t] ++ l.drop (i + 1) := by
    rw [List.append_assoc, List.singleton_append, ← hget, List.getElem_cons_drop,
      List.take_append_drop]
  have hone : [t].filterMap key = (key t).toList := by
    cases hkey : key t <;> simp [hkey]
  calc l.filterMap key = (l.take i ++ [t] ++ l.drop (i + 1)).filterMap key := by rw [← hsplit]
    _ = _ := by rw [List.filterMap_append, List.filterMap_append, hone]

/-- No other task holds the key of the task at a position. -/
theorem nodup_others {κ : Type} {key : τ → Option κ} {l : List τ} {i : Nat} {t : τ} {k : κ}
    (h : l[i]? = some t) (hnodup : (l.filterMap key).Nodup) (hkey : key t = some k) :
    ∀ t' ∈ l.eraseIdx i, key t' ≠ some k := by
  intro t' ht' hk
  rw [filterMap_split key h, hkey, Option.toList_some, List.append_assoc, List.singleton_append,
    List.perm_middle.nodup_iff, List.nodup_cons, ← List.filterMap_append,
    ← List.eraseIdx_eq_take_drop_succ] at hnodup
  exact hnodup.1 (List.mem_filterMap.mpr ⟨t', ht', hk⟩)

/-- A key that at most one task holds stays so, if a step passes on no more than its
    task held, or makes up a key that no other task holds. -/
theorem nodup_stepAt {κ : Type} (key : τ → Option κ) {s : ω × List τ} {a : Nat × ε} {t : τ}
    (h : s.2[a.1]? = some t) (hnodup : (s.2.filterMap key).Nodup)
    (hnext : ((step a.2 s.1 t).2.filterMap key).Sublist (key t).toList
      ∨ ∃ k, (step a.2 s.1 t).2.filterMap key = [k] ∧ ∀ t' ∈ s.2.eraseIdx a.1, key t' ≠ some k) :
    ((stepAt step s a).2.filterMap key).Nodup := by
  rw [stepAt_some step h]
  show (List.filterMap key (_ ++ _ ++ _)).Nodup
  rw [List.filterMap_append, List.filterMap_append]
  rcases hnext with hnext | ⟨k, hnext, hfree⟩
  · rw [filterMap_split key h] at hnodup
    exact hnodup.sublist
      (((List.Sublist.refl _).append hnext).append (List.Sublist.refl _))
  · rw [hnext, List.append_assoc, List.singleton_append, List.perm_middle.nodup_iff, List.nodup_cons,
      ← List.filterMap_append, ← List.eraseIdx_eq_take_drop_succ]
    refine ⟨fun hmem => ?_, hnodup.sublist ((List.eraseIdx_sublist s.2 a.1).filterMap key)⟩
    obtain ⟨t', ht', hk⟩ := List.mem_filterMap.mp hmem
    exact hfree t' ht' hk

/-- The same, if a step passes on what its task held and makes up one key that no task
    holds. -/
theorem nodup_stepAt_fresh {κ : Type} {key : τ → Option κ} {s : ω × List τ} {a : Nat × ε} {t : τ}
    {k : κ} (h : s.2[a.1]? = some t) (hnodup : (s.2.filterMap key).Nodup)
    (hnext : ((step a.2 s.1 t).2.filterMap key).Sublist ((key t).toList ++ [k]))
    (hfresh : ∀ t' ∈ s.2, key t' ≠ some k) : ((stepAt step s a).2.filterMap key).Nodup := by
  rw [stepAt_some step h]
  show (List.filterMap key (_ ++ _ ++ _)).Nodup
  rw [List.filterMap_append, List.filterMap_append]
  refine List.Nodup.sublist
    (((List.Sublist.refl _).append hnext).append (List.Sublist.refl _)) ?_
  have hmem : k ∉ s.2.filterMap key := by
    intro hmem
    obtain ⟨t', ht', hk⟩ := List.mem_filterMap.mp hmem
    exact hfresh t' ht' hk
  rw [filterMap_split key h] at hmem hnodup
  rw [← List.append_assoc, List.append_assoc _ [k], List.singleton_append,
    List.perm_middle.nodup_iff, List.nodup_cons]
  exact ⟨hmem, hnodup⟩

/-- A sum over the tasks changes by what the stepping task becomes. -/
theorem sum_stepAt (f : τ → Nat) {s : ω × List τ} {a : Nat × ε} {t : τ} (h : s.2[a.1]? = some t) :
    ((stepAt step s a).2.map f).sum + f t
      = (s.2.map f).sum + ((step a.2 s.1 t).2.map f).sum := by
  obtain ⟨hlt, hget⟩ := List.getElem?_eq_some_iff.mp h
  have hsplit : s.2 = s.2.take a.1 ++ t :: s.2.drop (a.1 + 1) := by
    rw [← hget, List.getElem_cons_drop, List.take_append_drop]
  have hsum := congrArg (fun l => (l.map f).sum) hsplit
  simp only [List.map_append, List.map_cons, List.sum_append, List.sum_cons] at hsum
  rw [stepAt_some step h, hsum]
  simp only [List.map_append, List.sum_append]
  omega

/-- A symmetric relation between any two tasks is one between a task and the others. -/
theorem pairwise_others {R : τ → τ → Prop} (hsymm : ∀ t u, R t u → R u t) {l : List τ} {i : Nat}
    {t : τ} (h : l[i]? = some t) (hpair : l.Pairwise R) : ∀ u ∈ l.eraseIdx i, R t u := by
  obtain ⟨hlt, hget⟩ := List.getElem?_eq_some_iff.mp h
  have hsplit : l = l.take i ++ t :: l.drop (i + 1) := by
    rw [← hget, List.getElem_cons_drop, List.take_append_drop]
  rw [hsplit, List.pairwise_append, List.pairwise_cons] at hpair
  intro u hu
  rw [List.eraseIdx_eq_take_drop_succ] at hu
  rcases List.mem_append.mp hu with hu | hu
  · exact hsymm u t (hpair.2.2 u hu t List.mem_cons_self)
  · exact hpair.2.1.1 u hu

/-- A relation between any two tasks stays, if a task becomes one task that is related
    to the others. -/
theorem pairwise_set {R : τ → τ → Prop} {l : List τ} {i : Nat} {t t' : τ} (h : l[i]? = some t)
    (hpair : l.Pairwise R) (hnew : ∀ u ∈ l.eraseIdx i, R t' u ∧ R u t') :
    (l.set i t').Pairwise R := by
  obtain ⟨hlt, -⟩ := List.getElem?_eq_some_iff.mp h
  have hothers : (l.eraseIdx i).Pairwise R := hpair.sublist (List.eraseIdx_sublist l i)
  rw [List.eraseIdx_eq_take_drop_succ] at hothers hnew
  rw [List.pairwise_append] at hothers
  obtain ⟨hbefore, hafter, hacross⟩ := hothers
  rw [List.set_eq_take_append_cons_drop, if_pos hlt, List.pairwise_append, List.pairwise_cons]
  refine ⟨hbefore, ⟨fun u hu => (hnew u (List.mem_append_right _ hu)).1, hafter⟩,
    fun u hu v hv => ?_⟩
  rcases List.mem_cons.mp hv with rfl | hv
  · exact (hnew u (List.mem_append_left _ hu)).2
  · exact hacross u hu v hv

/-- A property of single tasks that every step of a good task gives to what it
    becomes, and takes from no other, holds of all tasks along every schedule. -/
theorem schedule_rely {P : ω → τ → Prop} {Q : ω → Prop}
    (hworld : ∀ e w t, Q w → P w t → Q (step e w t).1)
    (hnext : ∀ e w t, Q w → P w t → ∀ t' ∈ (step e w t).2, P (step e w t).1 t')
    (hother : ∀ e w t t', Q w → P w t → P w t' → P (step e w t).1 t')
    (as : List (Nat × ε)) (s : ω × List τ) (hq : Q s.1) (hp : ∀ t ∈ s.2, P s.1 t) :
    Q (run (stepAt step) s as).1 ∧ ∀ t ∈ (run (stepAt step) s as).2,
      P (run (stepAt step) s as).1 t := by
  have hkeep : ∀ (s : ω × List τ) (a : Nat × ε), (Q s.1 ∧ ∀ t ∈ s.2, P s.1 t) →
      (Q (stepAt step s a).1 ∧ ∀ t ∈ (stepAt step s a).2, P (stepAt step s a).1 t) := by
    rintro s a ⟨hq, hp⟩
    cases h : s.2[a.1]? with
    | none => rw [stepAt_none step h]; exact ⟨hq, hp⟩
    | some t =>
        have hfst : (stepAt step s a).1 = (step a.2 s.1 t).1 := by rw [stepAt_some step h]
        have hpt : P s.1 t := hp t (List.mem_of_getElem? h)
        refine ⟨hfst ▸ hworld a.2 s.1 t hq hpt, fun t' ht' => ?_⟩
        rw [hfst]
        rcases mem_stepAt step h ht' with ht' | ht'
        · exact hnext a.2 s.1 t hq hpt t' ht'
        · exact hother a.2 s.1 t t' hq hpt (hp t' ht')
  exact run_invariant (stepAt step) hkeep as s ⟨hq, hp⟩

end DevstackInterleaving
