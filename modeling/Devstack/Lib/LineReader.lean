import Devstack.Lib.Lines

/-! # Line readers — telling each line of a changing file once

    A file grows at its end and is cut off at its end.  A reader is told of the lines
    that were finished since: the first `told` finished lines need no telling, the
    others are `due`.  What was due and is cut off is due no more.

    `append_told_lines` and `cut_told_prefix` say what becomes of the lines that need no
    telling.  A reader that keeps a position in the file instead of a count reads exactly
    the due lines if the position stands behind a separator (`finished_drop`). -/

namespace DevstackLineReader

open DevstackLines

variable {α : Type} [DecidableEq α] (sep : α)

/-! ## Finished lines of a longer and a shorter list -/

/-- What follows without a separator finishes nothing. -/
theorem finished_append_of_not_mem (as : List α) {bs : List α} (h : sep ∉ bs) :
    finished sep (as ++ bs) = finished sep as := by
  induction as using lines_induction sep with
  | hrest as has =>
      have hmem : sep ∉ as ++ bs := by
        rw [List.mem_append, not_or]
        exact ⟨has, h⟩
      rw [finished_of_not_mem sep hmem, finished_of_not_mem sep has]
  | hline as cs has ih =>
      rw [List.append_assoc, List.cons_append, finished_append_cons, finished_append_cons, ih]

/-- A finished line stays finished. -/
theorem prefix_finished {as bs : List α} (h : as <+: bs) : finished sep as <+: finished sep bs := by
  obtain ⟨more, rfl⟩ := h
  induction as using lines_induction sep with
  | hrest as has =>
      rw [finished_of_not_mem sep has]
      exact List.nil_prefix
  | hline as cs has ih =>
      rw [List.append_assoc, List.cons_append, finished_append_cons, finished_append_cons]
      exact List.prefix_append_right_inj _ |>.mpr (List.cons_prefix_cons.mpr ⟨rfl, ih⟩)

/-- The open part at the end finishes nothing. -/
theorem finished_append_completePart (as bs : List α) :
    finished sep (as ++ completePart sep bs) = finished sep (as ++ bs) := by
  conv_rhs => rw [← completePart_append_openPart sep bs, ← List.append_assoc]
  rw [finished_append_of_not_mem sep _ (not_mem_openPart sep bs)]

/-- Behind a position that follows a separator stand the other lines. -/
theorem finished_drop {as : List α} {n : Nat} (h : rest sep (as.take n) = []) :
    finished sep (as.drop n) = (finished sep as).drop (finished sep (as.take n)).length := by
  have hsplit := (lines_append sep h (as.drop n)).1
  rw [List.take_append_drop] at hsplit
  rw [hsplit, List.drop_left]

/-- Without a separator behind a position nothing is finished there. -/
theorem finished_take {as : List α} {n : Nat} (h : sep ∉ as.drop n) :
    finished sep (as.take n) = finished sep as := by
  conv_rhs => rw [← List.take_append_drop n as]
  rw [finished_append_of_not_mem sep _ h]

/-! ## Lines told and lines due -/

/-- A file, the number of its finished lines that need no telling, and the lines told. -/
structure Reading (sep : α) where
  content : List α
  told : Nat
  lines : List (List α)
  told_le : told ≤ (finished sep content).length

namespace Reading

variable {sep}

/-- A reader that comes to a file is told of no line that is finished already. -/
def start (content : List α) : Reading sep :=
  ⟨content, (finished sep content).length, [], Nat.le_refl _⟩

/-- The finished lines that are to be told. -/
def due (r : Reading sep) : List (List α) := (finished sep r.content).drop r.told

/-- The file grows. -/
def append (r : Reading sep) (more : List α) : Reading sep :=
  { r with
    content := r.content ++ more
    told_le := Nat.le_trans r.told_le (prefix_finished sep (List.prefix_append _ _)).length_le }

/-- The file is cut off after `n` items. -/
def cut (r : Reading sep) (n : Nat) : Reading sep :=
  { r with
    content := r.content.take n
    told := min r.told (finished sep (r.content.take n)).length
    told_le := Nat.min_le_right _ _ }

/-- The due lines are told. -/
def tell (r : Reading sep) : Reading sep :=
  ⟨r.content, (finished sep r.content).length, r.lines ++ r.due, Nat.le_refl _⟩

@[simp] theorem append_content (r : Reading sep) (more : List α) :
    (r.append more).content = r.content ++ more := rfl

@[simp] theorem append_told (r : Reading sep) (more : List α) : (r.append more).told = r.told := rfl

@[simp] theorem append_lines (r : Reading sep) (more : List α) :
    (r.append more).lines = r.lines := rfl

@[simp] theorem cut_content (r : Reading sep) (n : Nat) : (r.cut n).content = r.content.take n := rfl

@[simp] theorem cut_lines (r : Reading sep) (n : Nat) : (r.cut n).lines = r.lines := rfl

@[simp] theorem tell_content (r : Reading sep) : r.tell.content = r.content := rfl

@[simp] theorem tell_told (r : Reading sep) : r.tell.told = (finished sep r.content).length := rfl

@[simp] theorem tell_lines (r : Reading sep) : r.tell.lines = r.lines ++ r.due := rfl

/-- A cut leaves the lines that need no telling a prefix of what they were. -/
theorem cut_told_prefix (r : Reading sep) (n : Nat) :
    (finished sep (r.cut n).content).take (r.cut n).told
      <+: (finished sep r.content).take r.told := by
  obtain ⟨gone, hgone⟩ := prefix_finished sep (List.take_prefix n r.content)
  have hcut : (finished sep (r.cut n).content).take (r.cut n).told
      = (finished sep (r.content.take n)).take r.told := by
    show (finished sep (r.content.take n)).take (min r.told _) = _
    rw [Nat.min_comm, List.take_eq_take_iff]
    omega
  rw [hcut, ← hgone, List.take_append]
  exact List.prefix_append _ _

/-- Growing does not change the lines that need no telling. -/
theorem append_told_lines (r : Reading sep) (more : List α) :
    (finished sep (r.append more).content).take (r.append more).told
      = (finished sep r.content).take r.told := by
  obtain ⟨new, hnew⟩ := prefix_finished sep (List.prefix_append r.content more)
  rw [append_content, append_told, ← hnew, List.take_append_of_le_length r.told_le]

end Reading

end DevstackLineReader
