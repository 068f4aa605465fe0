import Mathlib.Data.List.Nodup

/-! # Stamped reads — reading a source that changes meanwhile

    A source is read in several steps while others change it.  It has a stamp, which is
    taken before and after; an answer may go into a cache under the stamp when both are
    the same.

    The source is given by its history, one value for each moment, the present one last.
    `WhileStill` is what a reader can say on its way: what follows *if* the source did not
    change since it began.  Stamps are good for something when the source was the same all
    the time between two moments with one stamp (`Stamped`); then two equal stamps turn
    the `if` into a fact (`WhileStill.validated`).  A source that only grows has this by
    itself (`stamped_of_grows`), and a reader that opened it reads on what it was then,
    whatever was added (`Opened`). -/

namespace DevstackStampedRead

/-- A reader answers after some steps; `finish` is the answer it is on the way to, as long
    as the source is what it is. -/
structure Reader (κ ρ β : Type) where
  start : ρ
  step : κ → ρ → ρ ⊕ β
  finish : κ → ρ → β

variable {γ σ κ ρ β : Type}

/-- What is read of a source that does not change. -/
def Reader.reads (reader : Reader κ ρ β) (c : κ) : β := reader.finish c reader.start

structure Reader.Lawful (reader : Reader κ ρ β) : Prop where
  onward : ∀ {c r r'}, reader.step c r = .inl r' → reader.finish c r' = reader.finish c r
  answers : ∀ {c r b}, reader.step c r = .inr b → b = reader.finish c r

-- ── if it did not change ──────────────────────────────────────────────────────

variable (view : γ → κ) (stamp : γ → σ)

/-- `P` holds of the source if it was the same since the moment `i`. -/
def WhileStill (history : List γ) (i : Nat) (P : κ → Prop) : Prop :=
  ∀ c, (∀ (j : Nat) (y : γ), i ≤ j → history[j]? = some y → view y = c) → P c

/-- Between two moments with one stamp the source is the same. -/
def Stamped (history : List γ) : Prop :=
  ∀ (i j k : Nat) (x y z : γ), i ≤ j → j ≤ k → history[i]? = some x → history[j]? = some y →
    history[k]? = some z → stamp x = stamp z → view y = view x

section Still

variable {view stamp} {history : List γ} {i : Nat} {P Q : κ → Prop}

theorem getElem?_push {j : Nat} {x : γ} (h : history[j]? = some x) (now : γ) :
    (history ++ [now])[j]? = some x := by
  rw [List.getElem?_append_left (List.getElem?_eq_some_iff.mp h).1, h]

theorem Stamped.of_push {now : γ} (h : Stamped view stamp (history ++ [now])) :
    Stamped view stamp history := by
  intro i j k x y z hij hjk hx hy hz
  exact h i j k x y z hij hjk (getElem?_push hx now) (getElem?_push hy now) (getElem?_push hz now)

/-- Two moments with one stamp, whichever was first. -/
theorem Stamped.same (h : Stamped view stamp history) {k : Nat} {x z : γ}
    (hx : history[i]? = some x) (hz : history[k]? = some z) (hstamp : stamp x = stamp z) :
    view x = view z := by
  rcases Nat.le_total i k with hle | hle
  · exact (h i k k x z z hle (Nat.le_refl k) hx hz hz hstamp).symm
  · exact h k i i z x x hle (Nat.le_refl i) hz hx hx hstamp.symm

/-- A source that never has a stamp twice. -/
theorem stamped_of_nodup (h : (history.map stamp).Nodup) : Stamped view stamp history := by
  intro i j k x y z hij hjk hx hy hz hstamp
  obtain ⟨hi, rfl⟩ := List.getElem?_eq_some_iff.mp hx
  obtain ⟨hk, rfl⟩ := List.getElem?_eq_some_iff.mp hz
  have hi' : i < (history.map stamp).length := by rwa [List.length_map]
  have hk' : k < (history.map stamp).length := by rwa [List.length_map]
  have hsame : (history.map stamp)[i] = (history.map stamp)[k] := by
    rw [List.getElem_map, List.getElem_map]
    exact hstamp
  obtain rfl := (List.Nodup.getElem_inj_iff h).mp hsame
  obtain rfl := Nat.le_antisymm hij hjk
  rw [hx] at hy
  cases hy
  rfl

theorem WhileStill.push (h : WhileStill view history i P) (now : γ) :
    WhileStill view (history ++ [now]) i P :=
  fun c hc => h c (fun j y hle hy => hc j y hle (getElem?_push hy now))

/-- A step of the reader, on the source as it is. -/
theorem WhileStill.imp (h : WhileStill view history i P) {k : Nat} {now : γ} (hle : i ≤ k)
    (hnow : history[k]? = some now) (himp : P (view now) → Q (view now)) :
    WhileStill view history i Q := by
  intro c hc
  obtain rfl := hc k now hle hnow
  exact himp (h _ hc)

/-- **THE STAMP IS THE SAME**, so the source was. -/
theorem WhileStill.validated (h : WhileStill view history i P)
    (hstamped : Stamped view stamp history) {x now : γ} (hx : history[i]? = some x)
    (hnow : history[history.length - 1]? = some now) (hstamp : stamp x = stamp now) :
    P (view x) := by
  refine h (view x) (fun j y hle hy => ?_)
  have hlt := (List.getElem?_eq_some_iff.mp hy).1
  exact hstamped i j (history.length - 1) x y now hle (Nat.le_sub_one_of_lt hlt) hx hy hnow hstamp

end Still

-- ── sources that grow ─────────────────────────────────────────────────────────

variable (ext : κ → κ → Prop)

/-- Every value extends the ones before. -/
def Grows (history : List γ) : Prop := history.Pairwise (fun x y => ext (view x) (view y))

/-- A reader that has opened the source reads on what it was, also after it was extended. -/
structure Reader.Stable (reader : Reader κ ρ β) (settled : κ → ρ → Prop) : Prop where
  opens : ∀ {c r}, reader.step c reader.start = .inl r → settled c r
  stays : ∀ {c r r'}, settled c r → reader.step c r = .inl r' → settled c r'
  same : ∀ {c c' r}, settled c r → ext c c' → reader.step c' r = reader.step c r

/-- The reader opened the source at some moment since `i`. -/
def Opened (reader : Reader κ ρ β) (settled : κ → ρ → Prop) (history : List γ) (i : Nat) (r : ρ) :
    Prop :=
  ∃ (o : Nat) (x : γ), i ≤ o ∧ history[o]? = some x ∧ settled (view x) r
    ∧ reader.finish (view x) r = reader.reads (view x)

/-- The answer is right for some moment since `i`. -/
def Current (reader : Reader κ ρ β) (history : List γ) (i : Nat) (b : β) : Prop :=
  ∃ (o : Nat) (x : γ), i ≤ o ∧ history[o]? = some x ∧ b = reader.reads (view x)

section Growing

variable {view stamp ext} {history : List γ} {i : Nat} {reader : Reader κ ρ β}
  {settled : κ → ρ → Prop}

/-- A stamp that tells the size of the source is enough for one that grows. -/
theorem stamped_of_grows (hrefl : ∀ c, ext c c) (hantisymm : ∀ c d, ext c d → ext d c → c = d)
    (hsized : ∀ x z, ext (view x) (view z) → stamp x = stamp z → view z = view x)
    (h : Grows view ext history) : Stamped view stamp history := by
  have hext : ∀ {i j : Nat} {x y : γ}, i ≤ j → history[i]? = some x → history[j]? = some y →
      ext (view x) (view y) := by
    intro i j x y hle hx hy
    obtain ⟨hi, rfl⟩ := List.getElem?_eq_some_iff.mp hx
    obtain ⟨hj, rfl⟩ := List.getElem?_eq_some_iff.mp hy
    rcases Nat.eq_or_lt_of_le hle with rfl | hlt
    · exact hrefl _
    · exact List.pairwise_iff_getElem.mp h i j hi hj hlt
  intro i j k x y z hij hjk hx hy hz hstamp
  have hsame := hsized x z (hext (Nat.le_trans hij hjk) hx hz) hstamp
  have hback := hext hjk hy hz
  rw [hsame] at hback
  exact hantisymm _ _ hback (hext hij hx hy)

theorem Grows.of_push {now : γ} (h : Grows view ext (history ++ [now])) :
    Grows view ext history :=
  List.Pairwise.sublist (List.sublist_append_left history [now]) h

theorem Opened.push {r : ρ} (h : Opened view reader settled history i r) (now : γ) :
    Opened view reader settled (history ++ [now]) i r := by
  obtain ⟨o, x, hle, hx, hrest⟩ := h
  exact ⟨o, x, hle, getElem?_push hx now, hrest⟩

theorem Current.push {b : β} (h : Current view reader history i b) (now : γ) :
    Current view reader (history ++ [now]) i b := by
  obtain ⟨o, x, hle, hx, hb⟩ := h
  exact ⟨o, x, hle, getElem?_push hx now, hb⟩

/-- The reader opens the source as it is. -/
theorem opened_start (hlawful : reader.Lawful) (hstable : reader.Stable ext settled) {k : Nat}
    {now : γ} {r : ρ} (hle : i ≤ k) (hnow : history[k]? = some now)
    (hstep : reader.step (view now) reader.start = .inl r) :
    Opened view reader settled history i r :=
  ⟨k, now, hle, hnow, hstable.opens hstep, hlawful.onward hstep⟩

/-- **WHAT WAS ADDED IS NOT SEEN**: the reader takes the step it would take if the source
    were as it was. -/
theorem Opened.seen {r : ρ} (h : Opened view reader settled history i r)
    (hstable : reader.Stable ext settled) (hrefl : ∀ c, ext c c)
    (hgrows : Grows view ext history) {now : γ}
    (hnow : history[history.length - 1]? = some now) :
    ∃ (o : Nat) (x : γ), i ≤ o ∧ history[o]? = some x ∧ settled (view x) r
      ∧ reader.finish (view x) r = reader.reads (view x)
      ∧ reader.step (view now) r = reader.step (view x) r := by
  obtain ⟨o, x, hle, hx, hsettled, hfinish⟩ := h
  refine ⟨o, x, hle, hx, hsettled, hfinish, hstable.same hsettled ?_⟩
  obtain ⟨ho, rfl⟩ := List.getElem?_eq_some_iff.mp hx
  obtain ⟨hlast, rfl⟩ := List.getElem?_eq_some_iff.mp hnow
  rcases Nat.eq_or_lt_of_le (Nat.le_sub_one_of_lt ho) with heq | hlt
  · simp only [heq]
    exact hrefl _
  · exact List.pairwise_iff_getElem.mp hgrows o _ ho hlast hlt

theorem Opened.onward {r r' : ρ} (h : Opened view reader settled history i r)
    (hlawful : reader.Lawful) (hstable : reader.Stable ext settled) (hrefl : ∀ c, ext c c)
    (hgrows : Grows view ext history) {now : γ}
    (hnow : history[history.length - 1]? = some now)
    (hstep : reader.step (view now) r = .inl r') : Opened view reader settled history i r' := by
  obtain ⟨o, x, hle, hx, hsettled, hfinish, hseen⟩ := h.seen hstable hrefl hgrows hnow
  rw [hseen] at hstep
  exact ⟨o, x, hle, hx, hstable.stays hsettled hstep, (hlawful.onward hstep).trans hfinish⟩

theorem Opened.answer {r : ρ} {b : β} (h : Opened view reader settled history i r)
    (hlawful : reader.Lawful) (hstable : reader.Stable ext settled) (hrefl : ∀ c, ext c c)
    (hgrows : Grows view ext history) {now : γ}
    (hnow : history[history.length - 1]? = some now)
    (hstep : reader.step (view now) r = .inr b) : Current view reader history i b := by
  obtain ⟨o, x, hle, hx, -, hfinish, hseen⟩ := h.seen hstable hrefl hgrows hnow
  rw [hseen] at hstep
  exact ⟨o, x, hle, hx, (hlawful.answers hstep).trans hfinish⟩

end Growing

end DevstackStampedRead
