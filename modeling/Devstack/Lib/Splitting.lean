import Mathlib.Data.List.Basic
import Mathlib.Algebra.GroupWithZero.Nat

/-! # Splitting — a text cut into pieces at its blanks

    A splitter reads a text from its start and ends a piece at a blank, where it is in
    its start state: quotes and escapes are states in which a blank is read on.

    `run` is the reading of a text that no blank ends.  A piece that is `Closed` is
    read back to the start state, so what follows a blank after it is read as if it
    stood alone (`pieces_closed`); a piece that is not takes the blank in. -/

namespace DevstackSplitting

structure Splitter (α σ : Type) where
  start : σ
  next : σ → α → σ
  blank : α → Bool

section Splitter

variable {α σ : Type} [DecidableEq σ] (k : Splitter α σ)

/-- A blank that ends a piece. -/
def Splitter.ends (st : σ) (c : α) : Bool := decide (st = k.start) && k.blank c

/-- The rest of a piece, and what follows it. -/
def takePiece (st : σ) : List α → List α × List α
  | [] => ([], [])
  | c :: cs =>
      if k.ends st c then ([], c :: cs)
      else (c :: (takePiece (k.next st c) cs).1, (takePiece (k.next st c) cs).2)

theorem takePiece_append (st : σ) (cs : List α) :
    (takePiece k st cs).1 ++ (takePiece k st cs).2 = cs := by
  induction cs generalizing st with
  | nil => rfl
  | cons c cs ih =>
      rw [takePiece]
      split
      · rfl
      · exact congrArg (c :: ·) (ih _)

theorem length_takePiece_le (st : σ) (cs : List α) :
    (takePiece k st cs).2.length ≤ cs.length := by
  have h := congrArg List.length (takePiece_append k st cs)
  rw [List.length_append] at h
  omega

/-- The pieces of a text. -/
def pieces : List α → List (List α)
  | [] => []
  | c :: cs =>
      if k.blank c then pieces cs
      else (c :: (takePiece k (k.next k.start c) cs).1)
        :: pieces (takePiece k (k.next k.start c) cs).2
termination_by cs => cs.length
decreasing_by
  · exact Nat.lt_succ_self _
  · exact Nat.lt_succ_of_le (length_takePiece_le ..)

/-- The state after a text that no blank ends. -/
def run (st : σ) : List α → Option σ
  | [] => some st
  | c :: cs => if k.ends st c then none else run (k.next st c) cs

/-- A piece that is over where it ends. -/
def Closed (p : List α) : Prop := p ≠ [] ∧ run k k.start p = some k.start

/-- A text that one piece can hold. -/
def Whole (p : List α) : Prop := p ≠ [] ∧ ∃ st, run k k.start p = some st

variable {k}

theorem Closed.whole {p : List α} (h : Closed k p) : Whole k p := ⟨h.1, _, h.2⟩

-- ── the reading of a text ─────────────────────────────────────────────────────

@[simp] theorem run_nil (st : σ) : run k st [] = some st := rfl

theorem run_append (st : σ) (p q : List α) :
    run k st (p ++ q) = (run k st p).bind (fun st' => run k st' q) := by
  induction p generalizing st with
  | nil => rfl
  | cons c p ih =>
      rw [List.cons_append, run, run]
      split
      · rfl
      · exact ih _

theorem run_append_of {st st' : σ} {p : List α} (h : run k st p = some st') (q : List α) :
    run k st (p ++ q) = run k st' q := by
  rw [run_append, h]
  rfl

theorem run_prefix {st st' : σ} {p q : List α} (h : run k st (p ++ q) = some st') :
    ∃ st'', run k st p = some st'' := by
  rw [run_append] at h
  cases hp : run k st p with
  | none =>
      rw [hp] at h
      exact nomatch h
  | some st'' => exact ⟨st'', rfl⟩

theorem not_blank_of_run {c : α} {cs : List α} {st : σ} (h : run k k.start (c :: cs) = some st) :
    k.blank c = false := by
  cases hblank : k.blank c with
  | false => rfl
  | true =>
      rw [run, if_pos (by simp [Splitter.ends, hblank])] at h
      exact nomatch h

-- ── one piece ─────────────────────────────────────────────────────────────────

/-- What is read of a piece is part of it. -/
theorem takePiece_of_run {st st' : σ} {p : List α} (h : run k st p = some st') (rest : List α) :
    takePiece k st (p ++ rest)
      = (p ++ (takePiece k st' rest).1, (takePiece k st' rest).2) := by
  induction p generalizing st with
  | nil =>
      rw [run_nil, Option.some.injEq] at h
      rw [h]
      rfl
  | cons c p ih =>
      rw [run] at h
      split at h
      · exact nomatch h
      · next hends => rw [List.cons_append, takePiece, if_neg hends, ih h, List.cons_append]

theorem takePiece_blank {w : α} (hw : k.blank w = true) (rest : List α) :
    takePiece k k.start (w :: rest) = ([], w :: rest) :=
  if_pos (by simp [Splitter.ends, hw])

/-- A piece is read through, and ends with the text or at a blank. -/
theorem takePiece_cases (st : σ) (cs : List α) :
    (∃ st', run k st (takePiece k st cs).1 = some st' ∧ (takePiece k st cs).2 = [])
      ∨ run k st (takePiece k st cs).1 = some k.start
        ∧ ∃ w rest, (takePiece k st cs).2 = w :: rest ∧ k.blank w = true := by
  induction cs generalizing st with
  | nil => exact Or.inl ⟨st, rfl, rfl⟩
  | cons c cs ih =>
      rw [takePiece]
      split
      · next hends =>
          rw [Splitter.ends, Bool.and_eq_true, decide_eq_true_eq] at hends
          exact Or.inr ⟨congrArg some hends.1, c, cs, rfl, hends.2⟩
      · next hends =>
          rw [run, if_neg hends]
          exact ih _

-- ── all pieces ────────────────────────────────────────────────────────────────

@[simp] theorem pieces_nil : pieces k [] = [] := by rw [pieces]

theorem pieces_blank {w : α} (hw : k.blank w = true) (cs : List α) :
    pieces k (w :: cs) = pieces k cs := by
  rw [pieces, if_pos hw]

/-- A text that begins with the reading of a piece. -/
theorem pieces_run {st : σ} {p : List α} (hne : p ≠ []) (h : run k k.start p = some st)
    (rest : List α) :
    pieces k (p ++ rest)
      = (p ++ (takePiece k st rest).1) :: pieces k (takePiece k st rest).2 := by
  obtain ⟨c, p, rfl⟩ := List.exists_cons_of_ne_nil hne
  have hblank := not_blank_of_run h
  have htail : run k (k.next k.start c) p = some st := by
    rw [run, if_neg (by simp [Splitter.ends, hblank])] at h
    exact h
  rw [List.cons_append, pieces, if_neg (by simp [hblank]), takePiece_of_run htail,
    List.cons_append]

/-- The first piece, and those of what follows it. -/
theorem pieces_of_take {cs p rest : List α} (hne : p ≠ [])
    (h : takePiece k k.start cs = (p, rest)) : pieces k cs = p :: pieces k rest := by
  have happend := takePiece_append k k.start cs
  have hrun : ∃ st, run k k.start p = some st := by
    rcases takePiece_cases (k := k) k.start cs with ⟨st, hrun, -⟩ | ⟨hrun, -⟩
    · exact ⟨st, by rwa [h] at hrun⟩
    · exact ⟨_, by rwa [h] at hrun⟩
  obtain ⟨st, hrun⟩ := hrun
  rw [h] at happend
  have hread := takePiece_of_run hrun rest
  rw [happend, h, Prod.mk.injEq] at hread
  rw [← happend, pieces_run hne hrun, ← hread.1, ← hread.2]

theorem pieces_closed {p : List α} (h : Closed k p) {w : α} (hw : k.blank w = true)
    (rest : List α) : pieces k (p ++ w :: rest) = p :: pieces k rest := by
  rw [pieces_run h.1 h.2, takePiece_blank hw, List.append_nil, pieces_blank hw]

theorem pieces_whole {p : List α} (h : Whole k p) : pieces k p = [p] := by
  obtain ⟨hne, st, hrun⟩ := h
  have hpieces := pieces_run hne hrun []
  rw [List.append_nil] at hpieces
  rw [hpieces, takePiece, List.append_nil, pieces_nil]

/-- The first piece of a text that begins with no blank. -/
theorem takePiece_first {c : α} (hc : k.blank c = false) (cs : List α) :
    ∃ p rest, takePiece k k.start (c :: cs) = (p, rest) ∧ c :: cs = p ++ rest
      ∧ (Whole k p ∧ rest = []
        ∨ Closed k p ∧ ∃ w rest', rest = w :: rest' ∧ k.blank w = true) := by
  have htake : takePiece k k.start (c :: cs)
      = (c :: (takePiece k (k.next k.start c) cs).1, (takePiece k (k.next k.start c) cs).2) := by
    rw [takePiece, if_neg (by simp [Splitter.ends, hc])]
  have happend := takePiece_append k k.start (c :: cs)
  have hcases := takePiece_cases (k := k) k.start (c :: cs)
  rw [htake] at hcases happend
  have hne : c :: (takePiece k (k.next k.start c) cs).1 ≠ [] := by simp
  refine ⟨_, _, htake, happend.symm, ?_⟩
  rcases hcases with ⟨st, hrun, hrest⟩ | ⟨hrun, hblank⟩
  · exact Or.inl ⟨⟨hne, st, hrun⟩, hrest⟩
  · exact Or.inr ⟨⟨hne, hrun⟩, hblank⟩

/-- Every text is empty, or begins with a blank, or is one piece, or begins with a closed
    piece and a blank. -/
@[elab_as_elim]
theorem split_induction {motive : List α → Prop} (nil : motive [])
    (blank : ∀ w cs, k.blank w = true → motive cs → motive (w :: cs))
    (last : ∀ p, Whole k p → motive p)
    (piece : ∀ p w rest, Closed k p → k.blank w = true → motive rest →
      motive (p ++ w :: rest)) (cs : List α) : motive cs := by
  induction hn : cs.length using Nat.strongRecOn generalizing cs with
  | _ n ih =>
      cases cs with
      | nil => exact nil
      | cons c cs =>
          cases hc : k.blank c with
          | true => exact blank c cs hc (ih cs.length (hn ▸ Nat.lt_succ_self _) cs rfl)
          | false =>
              obtain ⟨p, rest, -, happend, hends⟩ := takePiece_first hc cs
              rcases hends with ⟨hwhole, hrest⟩ | ⟨hclosed, w, rest', hrest, hw⟩
              · rw [happend, hrest, List.append_nil]
                exact last p hwhole
              · have hlength := congrArg List.length happend
                rw [hn, hrest, List.length_append, List.length_cons] at hlength
                rw [happend, hrest]
                exact piece p w rest' hclosed hw (ih rest'.length (by omega) rest' rfl)

theorem whole_of_mem_pieces {cs p : List α} (h : p ∈ pieces k cs) : Whole k p := by
  induction cs using split_induction (k := k) with
  | nil =>
      rw [pieces_nil] at h
      exact absurd h List.not_mem_nil
  | blank w cs hw ih => exact ih (pieces_blank hw cs ▸ h)
  | last q hq =>
      rw [pieces_whole hq] at h
      exact List.mem_singleton.mp h ▸ hq
  | piece q w rest hq hw ih =>
      rw [pieces_closed hq hw] at h
      rcases List.mem_cons.mp h with rfl | h
      · exact hq.whole
      · exact ih h

/-- The last piece of a text, which ends with blanks if not with that piece, and takes in
    what follows the text. -/
theorem last_piece (cs : List α) :
    (∀ c ∈ cs, k.blank c = true)
      ∨ ∃ front p blanks init, cs = front ++ (p ++ blanks) ∧ (∀ c ∈ blanks, k.blank c = true)
        ∧ Whole k p ∧ pieces k cs = init ++ [p]
        ∧ ∀ rest, pieces k (cs ++ rest) = init ++ pieces k (p ++ (blanks ++ rest)) := by
  induction cs using split_induction (k := k) with
  | nil => exact Or.inl (by simp)
  | blank w cs hw ih =>
      rcases ih with hall | ⟨front, p, blanks, init, rfl, hblanks, hp, hpieces, hrest⟩
      · exact Or.inl (List.forall_mem_cons.mpr ⟨hw, hall⟩)
      · refine Or.inr ⟨w :: front, p, blanks, init, rfl, hblanks, hp, ?_, fun rest => ?_⟩
        · rw [pieces_blank hw, hpieces]
        · rw [List.cons_append, pieces_blank hw, hrest]
  | last p hp =>
      exact Or.inr ⟨[], p, [], [], by simp, by simp, hp, pieces_whole hp, fun rest => by simp⟩
  | piece p w cs hp hw ih =>
      rcases ih with hall | ⟨front, q, blanks, init, rfl, hblanks, hq, hpieces, hrest⟩
      · have hblanks : ∀ c ∈ w :: cs, k.blank c = true := List.forall_mem_cons.mpr ⟨hw, hall⟩
        have hnil : ∀ {bs : List α}, (∀ c ∈ bs, k.blank c = true) → pieces k bs = [] := by
          intro bs hbs
          induction bs with
          | nil => exact pieces_nil
          | cons b bs ih =>
              obtain ⟨hb, hbs⟩ := List.forall_mem_cons.mp hbs
              rw [pieces_blank hb, ih hbs]
        refine Or.inr ⟨[], p, w :: cs, [], rfl, hblanks, hp.whole, ?_, fun rest => ?_⟩
        · rw [pieces_closed hp hw, hnil hall]
          rfl
        · rw [List.append_assoc, List.nil_append]
      · refine Or.inr ⟨p ++ w :: front, q, blanks, p :: init, by simp, hblanks, hq, ?_,
          fun rest => ?_⟩
        · rw [pieces_closed hp hw, hpieces]
          rfl
        · rw [List.append_assoc, List.cons_append, pieces_closed hp hw, hrest]
          rfl

-- ── pieces joined again ───────────────────────────────────────────────────────

/-- Parts with one separator between them. -/
def joinBy (w : α) : List (List α) → List α
  | [] => []
  | [p] => p
  | p :: q :: ps => p ++ w :: joinBy w (q :: ps)

/-- Parts with a separator after each, before a text. -/
def lead (w : α) (ps : List (List α)) (cs : List α) : List α :=
  ps.foldr (fun p cs => p ++ w :: cs) cs

theorem lead_cons (w : α) (p : List α) (ps : List (List α)) (cs : List α) :
    lead w (p :: ps) cs = p ++ w :: lead w ps cs := rfl

theorem lead_append (w : α) (ps qs : List (List α)) (cs : List α) :
    lead w (ps ++ qs) cs = lead w ps (lead w qs cs) := List.foldr_append

theorem joinBy_cons (w : α) (p : List α) {ps : List (List α)} (hne : ps ≠ []) :
    joinBy w (p :: ps) = p ++ w :: joinBy w ps := by
  obtain ⟨q, ps, rfl⟩ := List.exists_cons_of_ne_nil hne
  rfl

theorem joinBy_append (w : α) (ps : List (List α)) {qs : List (List α)} (hne : qs ≠ []) :
    joinBy w (ps ++ qs) = lead w ps (joinBy w qs) := by
  induction ps with
  | nil => rfl
  | cons p ps ih =>
      rw [List.cons_append, joinBy_cons w p (by simp [hne]), ih]
      rfl

theorem lead_append_text (w : α) (ps : List (List α)) (x y : List α) :
    lead w ps (x ++ y) = lead w ps x ++ y := by
  induction ps with
  | nil => rfl
  | cons p ps ih => rw [lead_cons, lead_cons, ih, List.append_assoc, List.cons_append]

theorem lead_eq_joinBy (w : α) {ps : List (List α)} (hne : ps ≠ []) (x : List α) :
    lead w ps x = joinBy w ps ++ w :: x := by
  induction ps with
  | nil => exact absurd rfl hne
  | cons p ps ih =>
      cases ps with
      | nil => rfl
      | cons q ps =>
          rw [lead_cons, ih (by simp), joinBy_cons w p (by simp), List.append_assoc,
            List.cons_append]

theorem joinBy_concat (w : α) (ps : List (List α)) (p : List α) :
    joinBy w (ps ++ [p]) = lead w ps p := joinBy_append w ps (by simp)

theorem pieces_lead {w : α} (hw : k.blank w = true) {ps : List (List α)}
    (h : ∀ p ∈ ps, Closed k p) (cs : List α) :
    pieces k (lead w ps cs) = ps ++ pieces k cs := by
  induction ps with
  | nil => rfl
  | cons p ps ih =>
      rw [lead_cons, pieces_closed (h p (List.mem_cons_self ..)) hw,
        ih (fun q hq => h q (List.mem_cons_of_mem _ hq))]
      rfl

/-- The pieces of a text, one blank apart, are its pieces again. -/
theorem pieces_joinBy_pieces {w : α} (hw : k.blank w = true) (cs : List α) :
    pieces k (joinBy w (pieces k cs)) = pieces k cs := by
  induction cs using split_induction (k := k) with
  | nil => rw [pieces_nil, joinBy, pieces_nil]
  | blank v cs hv ih => rw [pieces_blank hv, ih]
  | last p hp => rw [pieces_whole hp, joinBy, pieces_whole hp]
  | piece p v rest hp hv ih =>
      rw [pieces_closed hp hv]
      by_cases hnil : pieces k rest = []
      · rw [hnil, joinBy, pieces_whole hp.whole]
      · rw [joinBy_cons w p hnil, pieces_closed hp hw, ih]

/-- The room that parts take, each with a separator. -/
def room (ps : List (List α)) : ℕ := (ps.map (fun p => p.length + 1)).sum

@[simp] theorem room_nil : room ([] : List (List α)) = 0 := rfl

@[simp] theorem room_cons (p : List α) (ps : List (List α)) :
    room (p :: ps) = p.length + 1 + room ps := rfl

theorem length_joinBy (w : α) (ps : List (List α)) : (joinBy w ps).length = room ps - 1 := by
  induction ps with
  | nil => rfl
  | cons p ps ih =>
      cases ps with
      | nil => simp [joinBy]
      | cons q ps =>
          rw [joinBy_cons w p (by simp), List.length_append, List.length_cons, ih]
          simp only [room_cons]
          omega

theorem length_lead (w : α) (ps : List (List α)) (cs : List α) :
    (lead w ps cs).length = room ps + cs.length := by
  induction ps with
  | nil => simp [lead]
  | cons p ps ih =>
      rw [lead_cons, List.length_append, List.length_cons, ih, room_cons]
      omega

/-- A text has the room that its pieces take, save for the last separator. -/
theorem room_pieces_le (cs : List α) : room (pieces k cs) ≤ cs.length + 1 := by
  induction cs using split_induction (k := k) with
  | nil => simp
  | blank w cs hw ih =>
      rw [pieces_blank hw, List.length_cons]
      omega
  | last p hp => simp [pieces_whole hp]
  | piece p w rest hp hw ih =>
      rw [pieces_closed hp hw, room_cons, List.length_append, List.length_cons]
      omega

/-- Parts of which some are left out and some are shortened. -/
theorem room_filterMap_le {f : List α → Option (List α)}
    (hf : ∀ p d, f p = some d → d.length ≤ p.length) (ps : List (List α)) :
    room (ps.filterMap f) ≤ room ps := by
  induction ps with
  | nil => exact Nat.le_refl _
  | cons p ps ih =>
      cases hp : f p with
      | none =>
          rw [List.filterMap_cons_none hp, room_cons]
          omega
      | some d =>
          have hle := hf p d hp
          rw [List.filterMap_cons_some hp, room_cons, room_cons]
          omega

theorem kept_of_room {f : List α → Option (List α)}
    (hf : ∀ p d, f p = some d → d.length ≤ p.length) {ps : List (List α)}
    (hroom : room ps ≤ room (ps.filterMap f)) :
    ∀ p ∈ ps, ∃ d, f p = some d ∧ d.length = p.length := by
  induction ps with
  | nil => exact fun p hp => absurd hp List.not_mem_nil
  | cons p ps ih =>
      have hle := room_filterMap_le hf ps
      cases hp : f p with
      | none =>
          rw [List.filterMap_cons_none hp, room_cons] at hroom
          omega
      | some d =>
          have hd := hf p d hp
          rw [List.filterMap_cons_some hp, room_cons, room_cons] at hroom
          intro q hq
          rcases List.mem_cons.mp hq with rfl | hq
          · exact ⟨d, hp, by omega⟩
          · exact ih (by omega) q hq

/-- A text that is no longer than what is left of its pieces: every piece is left, at its
    length. -/
theorem kept_of_length {f : List α → Option (List α)}
    (hf : ∀ p d, f p = some d → d.length ≤ p.length) (w : α) {cs : List α}
    (h : cs.length ≤ (joinBy w ((pieces k cs).filterMap f)).length) :
    ∀ p ∈ pieces k cs, ∃ d, f p = some d ∧ d.length = p.length := by
  refine kept_of_room hf ?_
  rw [length_joinBy] at h
  have hpieces := room_pieces_le (k := k) cs
  cases cs with
  | nil => simp
  | cons c cs =>
      rw [List.length_cons] at h hpieces
      omega

end Splitter

-- ── splitters that only know blanks ───────────────────────────────────────────

section Blanks

variable {α σ : Type} [DecidableEq σ] [Subsingleton σ] {k : Splitter α σ}

/-- Every blank ends a piece. -/
theorem run_blanks_iff {st st' : σ} {p : List α} :
    run k st p = some st' ↔ ∀ c ∈ p, k.blank c = false := by
  induction p generalizing st with
  | nil => simp [Subsingleton.elim st st']
  | cons c p ih =>
      have hends : k.ends st c = k.blank c := by
        simp [Splitter.ends, Subsingleton.elim st k.start]
      rw [run, hends]
      cases hc : k.blank c with
      | true => simp [hc]
      | false => simp [hc, ih]

theorem closed_blanks_iff {p : List α} :
    Closed k p ↔ p ≠ [] ∧ ∀ c ∈ p, k.blank c = false := by
  rw [Closed, run_blanks_iff]

theorem not_blank_of_mem_pieces {cs p : List α} (h : p ∈ pieces k cs) :
    ∀ c ∈ p, k.blank c = false := by
  obtain ⟨-, st, hrun⟩ := whole_of_mem_pieces h
  exact run_blanks_iff.mp hrun

/-- A blank parts a text. -/
theorem pieces_append_blank {w : α} (hw : k.blank w = true) (cs ds : List α) :
    pieces k (cs ++ w :: ds) = pieces k cs ++ pieces k ds := by
  induction cs using split_induction (k := k) with
  | nil => rw [List.nil_append, pieces_blank hw, pieces_nil, List.nil_append]
  | blank v cs hv ih => rw [List.cons_append, pieces_blank hv, pieces_blank hv, ih]
  | last p hp =>
      obtain ⟨hne, st, hrun⟩ := hp
      have hclosed : Closed k p := closed_blanks_iff.mpr ⟨hne, run_blanks_iff.mp hrun⟩
      rw [pieces_closed hclosed hw, pieces_whole hclosed.whole]
      rfl
  | piece p v rest hp hv ih =>
      rw [List.append_assoc, List.cons_append, pieces_closed hp hv, pieces_closed hp hv, ih]
      rfl

/-- Blanks at the end leave the pieces as they are. -/
theorem pieces_concat_blank {w : α} (hw : k.blank w = true) (cs : List α) :
    pieces k (cs ++ [w]) = pieces k cs := by
  rw [pieces_append_blank hw, pieces_nil, List.append_nil]

theorem pieces_joinBy {w : α} (hw : k.blank w = true) (ps : List (List α)) :
    pieces k (joinBy w ps) = ps.flatMap (pieces k) := by
  induction ps with
  | nil => rw [joinBy, pieces_nil, List.flatMap_nil]
  | cons p ps ih =>
      cases ps with
      | nil => rw [joinBy, List.flatMap_cons, List.flatMap_nil, List.append_nil]
      | cons q ps =>
          rw [joinBy_cons w p (List.cons_ne_nil _ _), pieces_append_blank hw, ih,
            List.flatMap_cons (x := p)]

/-- A text that is cut at fewer blanks first, and each of its pieces at all of them. -/
theorem pieces_flatMap {τ : Type} [DecidableEq τ] {o : Splitter α τ}
    (hsub : ∀ c, o.blank c = true → k.blank c = true) (cs : List α) :
    pieces k cs = (pieces o cs).flatMap (pieces k) := by
  induction cs using split_induction (k := o) with
  | nil => rw [pieces_nil, pieces_nil, List.flatMap_nil]
  | blank w cs hw ih => rw [pieces_blank hw, pieces_blank (hsub w hw), ih]
  | last p hp => rw [pieces_whole hp, List.flatMap_cons, List.flatMap_nil, List.append_nil]
  | piece p w rest hp hw ih =>
      rw [pieces_closed hp hw, pieces_append_blank (hsub w hw), ih, List.flatMap_cons]

/-- A text whose pieces hold none of the blanks is cut at the blanks into the same. -/
theorem pieces_eq_of_no_blank {τ : Type} [DecidableEq τ] {o : Splitter α τ}
    (hsub : ∀ c, o.blank c = true → k.blank c = true) {cs : List α}
    (h : ∀ p ∈ pieces o cs, ∀ c ∈ p, k.blank c = false) :
    pieces k cs = pieces o cs := by
  induction cs using split_induction (k := o) with
  | nil => rw [pieces_nil, pieces_nil]
  | blank w cs hw ih =>
      rw [pieces_blank hw] at h
      rw [pieces_blank hw, pieces_blank (hsub w hw), ih h]
  | last p hp =>
      rw [pieces_whole hp] at h
      have hclosed : Closed k p :=
        closed_blanks_iff.mpr ⟨hp.1, h p (List.mem_singleton.mpr rfl)⟩
      rw [pieces_whole hp, pieces_whole hclosed.whole]
  | piece p w rest hp hw ih =>
      rw [pieces_closed hp hw] at h
      have hclosed : Closed k p :=
        closed_blanks_iff.mpr ⟨hp.1, h p (List.mem_cons_self ..)⟩
      rw [pieces_closed hp hw, pieces_closed hclosed (hsub w hw),
        ih (fun q hq => h q (List.mem_cons_of_mem _ hq))]

end Blanks

end DevstackSplitting
