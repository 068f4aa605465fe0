import Mathlib.Data.List.DropRight

/-! # Lines — cutting a list at a separator

    A list over any alphabet is its finished lines (each ended by the separator)
    and the rest after the last separator.  `lines_induction` follows that
    shape; `completePart` is what stands up to the last separator. -/

namespace DevstackLines

variable {α : Type} [DecidableEq α] (sep : α)

/-- The finished lines, without their separators, and the rest. -/
def lines : List α → List (List α) × List α
  | [] => ([], [])
  | a :: as =>
      if a = sep then ([] :: (lines as).1, (lines as).2)
      else
        match (lines as).1 with
        | [] => ([], a :: (lines as).2)
        | l :: ls => ((a :: l) :: ls, (lines as).2)

def finished (as : List α) : List (List α) := (lines sep as).1

def rest (as : List α) : List α := (lines sep as).2

/-- `split_inclusive`: every finished line with its separator, then a non-empty rest. -/
def splitInclusive (as : List α) : List (List α) :=
  (finished sep as).map (· ++ [sep]) ++ if rest sep as = [] then [] else [rest sep as]

@[simp] theorem finished_nil : finished sep ([] : List α) = [] := rfl

@[simp] theorem rest_nil : rest sep ([] : List α) = [] := rfl

private theorem lines_cons (a : α) (as : List α) :
    lines sep (a :: as)
      = if a = sep then ([] :: (lines sep as).1, (lines sep as).2)
        else
          match (lines sep as).1 with
          | [] => ([], a :: (lines sep as).2)
          | l :: ls => ((a :: l) :: ls, (lines sep as).2) := rfl

/-- A separator finishes the rest of what stands before it. -/
theorem lines_append_cons (as bs : List α) :
    lines sep (as ++ sep :: bs)
      = (finished sep as ++ rest sep as :: finished sep bs, rest sep bs) := by
  induction as with
  | nil =>
      show (if sep = sep then _ else _) = _
      rw [if_pos rfl]; rfl
  | cons a as ih =>
      simp only [finished, rest] at ih ⊢
      rw [List.cons_append, lines_cons, lines_cons, ih]
      by_cases ha : a = sep
      · rw [if_pos ha, if_pos ha]; rfl
      · rw [if_neg ha, if_neg ha]
        cases h : (lines sep as).1 with
        | nil => rfl
        | cons l ls => rfl

theorem finished_append_cons (as bs : List α) :
    finished sep (as ++ sep :: bs) = finished sep as ++ rest sep as :: finished sep bs := by
  rw [finished, lines_append_cons]

theorem rest_append_cons (as bs : List α) : rest sep (as ++ sep :: bs) = rest sep bs := by
  rw [rest, lines_append_cons]

/-- A list without separators is all rest. -/
theorem lines_of_not_mem {as : List α} (h : sep ∉ as) : lines sep as = ([], as) := by
  induction as with
  | nil => rfl
  | cons a as ih =>
      have ha : a ≠ sep := fun he => h (by rw [he]; exact List.mem_cons_self)
      have hmem : sep ∉ as := fun hm => h (List.mem_cons_of_mem a hm)
      rw [lines, if_neg ha, ih hmem]

theorem finished_of_not_mem {as : List α} (h : sep ∉ as) : finished sep as = [] := by
  rw [finished, lines_of_not_mem sep h]

theorem rest_of_not_mem {as : List α} (h : sep ∉ as) : rest sep as = as := by
  rw [rest, lines_of_not_mem sep h]

/-- Induction along the lines: a separator-free list, or a separator-free line,
    its separator and a list that is already settled. -/
theorem lines_induction {P : List α → Prop} (hrest : ∀ as, sep ∉ as → P as)
    (hline : ∀ as bs, sep ∉ as → P bs → P (as ++ sep :: bs)) : ∀ as, P as := by
  intro as
  induction hn : as.length using Nat.strong_induction_on generalizing as with
  | _ n ih =>
      by_cases hmem : sep ∈ as
      · obtain ⟨pre, post, heq, hpre⟩ := List.eq_append_cons_of_mem hmem
        rw [heq]
        refine hline pre post hpre (ih post.length ?_ post rfl)
        rw [← hn, heq, List.length_append, List.length_cons]; omega
      · exact hrest as hmem

/-- The finished lines and the rest of a list that begins with finished lines. -/
theorem lines_append {as : List α} (h : rest sep as = []) (bs : List α) :
    finished sep (as ++ bs) = finished sep as ++ finished sep bs
      ∧ rest sep (as ++ bs) = rest sep bs := by
  induction as using lines_induction sep with
  | hrest as has =>
      rw [rest_of_not_mem sep has] at h
      rw [h]
      exact ⟨rfl, rfl⟩
  | hline as cs has ih =>
      rw [rest_append_cons] at h
      obtain ⟨h1, h2⟩ := ih h
      rw [List.append_assoc, List.cons_append, finished_append_cons, rest_append_cons,
        finished_append_cons, h1, h2]
      exact ⟨by rw [List.append_assoc]; rfl, rfl⟩

/-! ## Line by line -/

theorem splitInclusive_of_not_mem {as : List α} (h : sep ∉ as) :
    splitInclusive sep as = if as = [] then [] else [as] := by
  rw [splitInclusive, finished_of_not_mem sep h, rest_of_not_mem sep h]
  rfl

theorem splitInclusive_append_cons {as : List α} (h : sep ∉ as) (bs : List α) :
    splitInclusive sep (as ++ sep :: bs) = (as ++ [sep]) :: splitInclusive sep bs := by
  rw [splitInclusive, finished_append_cons, rest_append_cons, finished_of_not_mem sep h,
    rest_of_not_mem sep h]
  rfl

omit [DecidableEq α] in
/-- A list is cut at its first separator in one way only. -/
theorem cut_at {sep : α} {xs ys zs ws : List α} (hx : sep ∉ xs) (hz : sep ∉ zs)
    (h : xs ++ sep :: ys = zs ++ sep :: ws) : xs = zs ∧ ys = ws := by
  induction xs generalizing zs with
  | nil =>
      cases zs with
      | nil => exact ⟨rfl, (List.cons.inj h).2⟩
      | cons z zs => exact absurd ((List.cons.inj h).1 ▸ List.mem_cons_self) hz
  | cons x xs ih =>
      cases zs with
      | nil => exact absurd ((List.cons.inj h).1 ▸ List.mem_cons_self) hx
      | cons z zs =>
          obtain ⟨hhead, htail⟩ := List.cons.inj h
          rw [List.mem_cons, not_or] at hx hz
          obtain ⟨htake, hdrop⟩ := ih hx.2 hz.2 htail
          exact ⟨by rw [hhead, htake], hdrop⟩

/-- What a buffered reader that still delivers these chunks reads up to the next
    separator, and with it; what it has of the chunk after that stays buffered. -/
def readUntil : List (List α) → List α × List (List α)
  | [] => ([], [])
  | chunk :: chunks =>
      match chunk.dropWhile (· ≠ sep) with
      | [] => (chunk ++ (readUntil chunks).1, (readUntil chunks).2)
      | _ :: after => (chunk.takeWhile (· ≠ sep) ++ [sep], after :: chunks)

/-- Without a separator, everything is read. -/
theorem readUntil_of_not_mem {chunks : List (List α)} (h : sep ∉ chunks.flatten) :
    (readUntil sep chunks).1 = chunks.flatten ∧ (readUntil sep chunks).2.flatten = [] := by
  induction chunks with
  | nil => exact ⟨rfl, rfl⟩
  | cons chunk chunks ih =>
      rw [List.flatten_cons, List.mem_append, not_or] at h
      have hdrop : chunk.dropWhile (· ≠ sep) = [] := by
        rw [List.dropWhile_eq_nil_iff]
        intro a ha
        exact decide_eq_true (fun he => h.1 (he ▸ ha))
      obtain ⟨hread, hleft⟩ := ih h.2
      rw [readUntil, hdrop]
      exact ⟨by rw [List.flatten_cons, ← hread], hleft⟩

/-- Otherwise the first line is read, however the chunks cut it. -/
theorem readUntil_line {chunks : List (List α)} {as bs : List α} (has : sep ∉ as)
    (h : chunks.flatten = as ++ sep :: bs) :
    (readUntil sep chunks).1 = as ++ [sep] ∧ (readUntil sep chunks).2.flatten = bs := by
  induction chunks generalizing as with
  | nil => simp at h
  | cons chunk chunks ih =>
      rw [List.flatten_cons] at h
      have hsplit := List.takeWhile_append_dropWhile (p := fun a => decide (a ≠ sep)) (l := chunk)
      have htake : sep ∉ chunk.takeWhile (· ≠ sep) := by
        intro hmem
        have hp := List.mem_takeWhile_imp hmem
        exact absurd rfl (of_decide_eq_true hp)
      rw [readUntil]
      cases hdrop : chunk.dropWhile (· ≠ sep) with
      | nil =>
          rw [hdrop, List.append_nil] at hsplit
          rw [hsplit] at htake
          -- the chunk has no separator: it is the front of the line
          obtain ⟨front, hfront⟩ : ∃ front, as = chunk ++ front := by
            rcases List.append_eq_append_iff.mp h with ⟨front, has', -⟩ | ⟨rest, hchunk, hrest⟩
            · exact ⟨front, has'⟩
            · cases rest with
              | nil => exact ⟨[], by simpa using hchunk.symm⟩
              | cons a rest =>
                  have ha : a = sep := (List.cons.inj hrest).1.symm
                  exact absurd (by rw [hchunk, ha]; simp) htake
          subst hfront
          rw [List.append_assoc, List.append_cancel_left_eq] at h
          rw [List.mem_append, not_or] at has
          obtain ⟨hread, hleft⟩ := ih has.2 h
          exact ⟨by rw [hread, List.append_assoc], hleft⟩
      | cons a after =>
          have ha : a = sep := by
            have := List.head?_dropWhile_not (p := fun a => decide (a ≠ sep)) chunk
            rw [hdrop] at this
            simpa using this
          rw [hdrop, ha] at hsplit
          rw [← hsplit, List.append_assoc, List.cons_append] at h
          obtain ⟨hline, hleft⟩ := cut_at htake has h
          exact ⟨by rw [hline], hleft⟩

/-! ## Up to the last separator -/

/-- The list up to and including its last separator. -/
def completePart (as : List α) : List α := as.rdropWhile (· ≠ sep)

/-- What stands after the last separator. -/
def openPart (as : List α) : List α := as.rtakeWhile (· ≠ sep)

theorem completePart_append_openPart (as : List α) :
    completePart sep as ++ openPart sep as = as :=
  List.rdropWhile_append_rtakeWhile

theorem not_mem_openPart (as : List α) : sep ∉ openPart sep as := by
  intro hmem
  have hp := List.mem_rtakeWhile_imp hmem
  exact absurd rfl (of_decide_eq_true hp)

/-- The complete part is made of finished lines. -/
theorem rest_completePart (as : List α) : rest sep (completePart sep as) = [] := by
  induction as using List.reverseRecOn with
  | nil => rfl
  | append_singleton as a ih =>
      rw [completePart, List.rdropWhile_concat]
      by_cases ha : a = sep
      · rw [if_neg (by simpa using ha), ha]
        exact rest_append_cons sep as []
      · rw [if_pos (by simpa using ha)]
        exact ih

/-- A last element that is no separator is in the rest. -/
theorem rest_concat_ne_nil (as : List α) {a : α} (ha : a ≠ sep) : rest sep (as ++ [a]) ≠ [] := by
  induction as using lines_induction sep with
  | hrest as hmem =>
      rw [rest_of_not_mem sep (by simp [hmem, Ne.symm ha])]
      simp
  | hline as cs _ ih =>
      rw [List.append_assoc, List.cons_append, rest_append_cons]
      exact ih

/-- A list is cut at its last separator in one way only. -/
theorem completePart_unique {as bs : List α} (has : rest sep as = []) (hbs : sep ∉ bs) :
    completePart sep (as ++ bs) = as := by
  induction bs using List.reverseRecOn with
  | nil =>
      rw [List.append_nil]
      cases as using List.reverseRecOn with
      | nil => rfl
      | append_singleton as a _ =>
          rw [completePart, List.rdropWhile_concat]
          by_cases ha : a = sep
          · rw [if_neg (by simpa using ha)]
          · exact absurd has (rest_concat_ne_nil sep as ha)
  | append_singleton bs b ih =>
      have hb : b ≠ sep := fun he => hbs (by simp [he])
      rw [← List.append_assoc, completePart, List.rdropWhile_concat_pos _ _ _ (by simpa using hb)]
      exact ih (fun hm => hbs (by simp [hm]))

/-- Finished lines in front stay in the complete part. -/
theorem completePart_append {as : List α} (has : rest sep as = []) (bs : List α) :
    completePart sep (as ++ bs) = as ++ completePart sep bs := by
  have hcut : as ++ bs = (as ++ completePart sep bs) ++ openPart sep bs := by
    rw [List.append_assoc, completePart_append_openPart]
  have hrest : rest sep (as ++ completePart sep bs) = [] := by
    rw [(lines_append sep has _).2, rest_completePart]
  rw [hcut]
  exact completePart_unique sep hrest (not_mem_openPart sep bs)

/-- Nothing is complete exactly when there is no separator. -/
theorem completePart_eq_nil {as : List α} : completePart sep as = [] ↔ sep ∉ as := by
  rw [completePart, List.rdropWhile_eq_nil_iff]
  constructor
  · intro h hmem
    exact absurd rfl (of_decide_eq_true (h sep hmem))
  · intro h a ha
    exact decide_eq_true (fun he => h (he ▸ ha))

end DevstackLines
