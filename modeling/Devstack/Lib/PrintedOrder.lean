import Mathlib.Data.List.Lex
import Mathlib.Data.List.DropRight
import Mathlib.Data.String.Basic
import Mathlib.Data.Finset.Dedup
import Mathlib.Data.Finset.Max
import Mathlib.Data.Nat.Find

/-! # Printed order — numbers compared by their text

    A text of fixed-width fields with a separator after each compares as the fields
    do, the first one first.  A field without its trailing zeros does not: before the
    sign that ends the text, a shorter field reads as the later one where that sign
    is greater than every digit (`trimmed_lt_iff`).

    `latest_iff`: a choice by the text is a choice by the value exactly when no text
    is greater than that of the greatest values. -/

namespace DevstackPrintedOrder

-- ── the lexicographic order ───────────────────────────────────────────────────

section Lex

variable {α : Type} [LinearOrder α]

/-- First parts of one length decide, unless they are equal. -/
theorem append_lt_append_iff {u v : List α} (x y : List α) (hlength : u.length = v.length) :
    u ++ x < v ++ y ↔ u < v ∨ u = v ∧ x < y := by
  induction u generalizing v with
  | nil =>
      have hv : v = [] := List.length_eq_zero_iff.mp hlength.symm
      subst hv
      simp
  | cons a u ih =>
      obtain ⟨b, v, rfl⟩ := List.exists_cons_of_length_pos
        (show 0 < v.length by rw [← hlength]; exact Nat.succ_pos _)
      have htail : u.length = v.length := Nat.succ.inj hlength
      rw [List.cons_append, List.cons_append, List.cons_lt_cons_iff, List.cons_lt_cons_iff,
        ih htail, List.cons.injEq]
      constructor
      · rintro (hlt | ⟨rfl, hlt | ⟨rfl, hlt⟩⟩)
        · exact Or.inl (Or.inl hlt)
        · exact Or.inl (Or.inr ⟨rfl, hlt⟩)
        · exact Or.inr ⟨⟨rfl, rfl⟩, hlt⟩
      · rintro ((hlt | ⟨rfl, hlt⟩) | ⟨⟨rfl, rfl⟩, hlt⟩)
        · exact Or.inl hlt
        · exact Or.inr ⟨rfl, Or.inl hlt⟩
        · exact Or.inr ⟨rfl, Or.inr ⟨rfl, hlt⟩⟩

end Lex

-- ── fields without their trailing zeros ───────────────────────────────────────

section Trim

variable {α : Type} [LinearOrder α] (zero stop : α)

/-- The digits without the zeros at their end. -/
def trim (digits : List α) : List α := digits.rdropWhile (fun d => decide (d = zero))

variable {zero stop}

theorem trim_eq_nil_iff {digits : List α} : trim zero digits = [] ↔ ∀ d ∈ digits, d = zero := by
  rw [trim, List.rdropWhile_eq_nil_iff]
  simp only [decide_eq_true_eq]

theorem trim_cons (d : α) (digits : List α) :
    trim zero (d :: digits)
      = if d = zero ∧ trim zero digits = [] then [] else d :: trim zero digits := by
  induction digits using List.reverseRecOn with
  | nil => simp [trim, List.rdropWhile_singleton, List.rdropWhile_nil]
  | append_singleton digits last ih =>
      by_cases hlast : last = zero
      · rw [trim, trim, ← List.cons_append, List.rdropWhile_concat, List.rdropWhile_concat]
        simp only [hlast, decide_true, if_true]
        exact ih
      · have hne : trim zero (digits ++ [last]) ≠ [] := by
          rw [trim, List.rdropWhile_concat]
          simp [hlast]
        rw [if_neg (fun h => hne h.2), trim, trim, ← List.cons_append, List.rdropWhile_concat,
          List.rdropWhile_concat]
        simp [hlast]

/-- Digits that are greater than others have one that is not zero. -/
theorem trim_ne_nil {x y : List α} (hzero : ∀ d ∈ x, zero ≤ d) (hlength : x.length = y.length)
    (hlt : x < y) : trim zero y ≠ [] := by
  intro hnil
  rw [trim_eq_nil_iff] at hnil
  induction x generalizing y with
  | nil =>
      have hy : y = [] := List.length_eq_zero_iff.mp hlength.symm
      rw [hy] at hlt
      exact lt_irrefl _ hlt
  | cons a x ih =>
      cases y with
      | nil => exact nomatch hlength
      | cons b y =>
          rw [List.cons_lt_cons_iff] at hlt
          rcases hlt with hlt | ⟨-, hlt⟩
          · rw [hnil b (List.mem_cons_self ..)] at hlt
            exact not_le.mpr hlt (hzero a (List.mem_cons_self ..))
          · exact ih (fun d hd => hzero d (List.mem_cons_of_mem _ hd)) (Nat.succ.inj hlength) hlt
              (fun d hd => hnil d (List.mem_cons_of_mem _ hd))

/-- Of two fields of one width without their trailing zeros, the smaller one reads as
    the later exactly when its digits begin the other's. -/
theorem trimmed_lt_iff {x y : List α} (hx : ∀ d ∈ x, zero ≤ d ∧ d < stop)
    (hy : ∀ d ∈ y, d < stop) (hlength : x.length = y.length) (hlt : x < y) :
    trim zero y ++ [stop] < trim zero x ++ [stop] ↔ trim zero x <+: trim zero y := by
  induction x generalizing y with
  | nil =>
      have hy : y = [] := List.length_eq_zero_iff.mp hlength.symm
      rw [hy] at hlt
      exact absurd hlt (lt_irrefl _)
  | cons a x ih =>
      cases y with
      | nil => exact nomatch hlength
      | cons b y =>
          obtain ⟨hzero, hastop⟩ := hx a (List.mem_cons_self ..)
          have hb : b < stop := hy b (List.mem_cons_self ..)
          have hxtail : ∀ d ∈ x, zero ≤ d ∧ d < stop := fun d hd => hx d (List.mem_cons_of_mem _ hd)
          have hytail : ∀ d ∈ y, d < stop := fun d hd => hy d (List.mem_cons_of_mem _ hd)
          have htail : x.length = y.length := Nat.succ.inj hlength
          have hkept : trim zero (b :: y) = b :: trim zero y := by
            rw [trim_cons, if_neg]
            rintro ⟨hbzero, hnil⟩
            rcases List.cons_lt_cons_iff.mp hlt with hab | ⟨-, hxy⟩
            · exact not_le.mpr (hbzero ▸ hab) hzero
            · exact trim_ne_nil (fun d hd => (hxtail d hd).1) htail hxy hnil
          rw [hkept, trim_cons]
          by_cases hnone : a = zero ∧ trim zero x = []
          · -- nothing is left of the smaller field: the sign stands against a digit
            rw [if_pos hnone, List.nil_append, List.cons_append, List.cons_lt_cons_iff]
            exact ⟨fun _ => List.nil_prefix, fun _ => Or.inl hb⟩
          · rw [if_neg hnone, List.cons_append, List.cons_append, List.cons_lt_cons_iff,
              List.cons_prefix_cons]
            rcases List.cons_lt_cons_iff.mp hlt with hab | ⟨rfl, hxy⟩
            · constructor
              · rintro (hba | ⟨hba, -⟩)
                · exact absurd hba (not_lt_of_gt hab)
                · exact absurd hba hab.ne'
              · rintro ⟨hba, -⟩
                exact absurd hba hab.ne
            · rw [← ih hxtail hytail htail hxy]
              simp

end Trim

-- ── fields of a fixed width ───────────────────────────────────────────────────

/-- The digit's character. -/
def digitChar (d : ℕ) : Char := Char.ofNat (48 + d % 10)

/-- The number in `width` decimal digits. -/
def pad : ℕ → ℕ → List Char
  | 0, _ => []
  | width + 1, n => digitChar (n / 10 ^ width) :: pad width (n % 10 ^ width)

@[simp] theorem length_pad (width n : ℕ) : (pad width n).length = width := by
  induction width generalizing n with
  | zero => rfl
  | succ width ih => rw [pad, List.length_cons, ih]

theorem digitChar_lt_iff {a b : ℕ} (ha : a < 10) (hb : b < 10) :
    digitChar a < digitChar b ↔ a < b :=
  (by decide : ∀ a b : Fin 10, digitChar a < digitChar b ↔ a.1 < b.1) ⟨a, ha⟩ ⟨b, hb⟩

theorem digitChar_inj {a b : ℕ} (ha : a < 10) (hb : b < 10) :
    digitChar a = digitChar b ↔ a = b :=
  (by decide : ∀ a b : Fin 10, digitChar a = digitChar b ↔ a.1 = b.1) ⟨a, ha⟩ ⟨b, hb⟩

theorem digitChar_range (d : ℕ) : '0' ≤ digitChar d ∧ digitChar d < ':' := by
  have hmod : digitChar d = digitChar (d % 10) := by rw [digitChar, digitChar, Nat.mod_mod]
  rw [hmod]
  exact (by decide : ∀ d : Fin 10, '0' ≤ digitChar d ∧ digitChar d < ':')
    ⟨d % 10, Nat.mod_lt _ (by decide)⟩

theorem pad_range (width n : ℕ) : ∀ d ∈ pad width n, '0' ≤ d ∧ d < ':' := by
  induction width generalizing n with
  | zero => exact fun d hd => absurd hd List.not_mem_nil
  | succ width ih =>
      intro d hd
      rcases List.mem_cons.mp hd with rfl | hd
      · exact digitChar_range _
      · exact ih _ d hd

/-- A value is split by a divisor as the lexicographic order wants it. -/
theorem lt_iff_div_mod (k a b : ℕ) :
    a < b ↔ a / k < b / k ∨ a / k = b / k ∧ a % k < b % k := by
  have ha := Nat.div_add_mod a k
  have hb := Nat.div_add_mod b k
  constructor
  · intro hlt
    rcases (Nat.div_le_div_right (c := k) hlt.le).lt_or_eq with hdiv | hdiv
    · exact Or.inl hdiv
    · refine Or.inr ⟨hdiv, ?_⟩
      rw [hdiv] at ha
      omega
  · rintro (hdiv | ⟨hdiv, hmod⟩)
    · exact lt_of_not_ge (fun hle => not_lt.mpr (Nat.div_le_div_right hle) hdiv)
    · rw [hdiv] at ha
      omega

theorem pad_lt_iff {width a b : ℕ} (ha : a < 10 ^ width) (hb : b < 10 ^ width) :
    pad width a < pad width b ↔ a < b := by
  induction width generalizing a b with
  | zero => simp [pad]; omega
  | succ width ih =>
      have hpos : 0 < 10 ^ width := Nat.pow_pos (by omega)
      have ha' : a / 10 ^ width < 10 := (Nat.div_lt_iff_lt_mul hpos).mpr (by rwa [← Nat.pow_succ'])
      have hb' : b / 10 ^ width < 10 := (Nat.div_lt_iff_lt_mul hpos).mpr (by rwa [← Nat.pow_succ'])
      rw [pad, pad, List.cons_lt_cons_iff, digitChar_lt_iff ha' hb', digitChar_inj ha' hb',
        ih (Nat.mod_lt _ hpos) (Nat.mod_lt _ hpos), ← lt_iff_div_mod]

theorem pad_inj {width a b : ℕ} (ha : a < 10 ^ width) (hb : b < 10 ^ width) :
    pad width a = pad width b ↔ a = b := by
  constructor
  · intro h
    refine le_antisymm (le_of_not_gt fun hlt => ?_) (le_of_not_gt fun hlt => ?_)
    · exact lt_irrefl _ (h ▸ (pad_lt_iff hb ha).mpr hlt)
    · exact lt_irrefl _ (h ▸ (pad_lt_iff ha hb).mpr hlt)
  · exact fun h => h ▸ rfl

/-- A padded field before the rest of the text decides, unless the numbers are equal. -/
theorem field_lt_iff {width a b : ℕ} (sep : Char) (x y : List Char) (ha : a < 10 ^ width)
    (hb : b < 10 ^ width) :
    pad width a ++ sep :: x < pad width b ++ sep :: y ↔ a < b ∨ a = b ∧ x < y := by
  rw [append_lt_append_iff _ _ (by simp), pad_lt_iff ha hb, pad_inj ha hb,
    List.cons_lt_cons_self]

-- ── intervals that begin one after the other ──────────────────────────────────

section Intervals

variable (start : ℕ → ℕ)

/-- The last of the first `bound` intervals that began at `n` or before. -/
def intervalOf (bound n : ℕ) : ℕ := Nat.findGreatest (fun i => start i ≤ n) bound

variable {start} (hstart : start 0 = 0)
include hstart

theorem start_intervalOf_le (bound n : ℕ) : start (intervalOf start bound n) ≤ n :=
  Nat.findGreatest_spec (P := fun i => start i ≤ n) (Nat.zero_le bound) (by simp [hstart])

omit hstart in
variable (start) in
theorem intervalOf_le (bound n : ℕ) : intervalOf start bound n ≤ bound := Nat.findGreatest_le bound

omit hstart in
theorem lt_start_succ {bound n : ℕ} (hbound : n < start (bound + 1)) :
    n < start (intervalOf start bound n + 1) := by
  rcases (intervalOf_le start bound n).lt_or_eq with hlt | heq
  · exact lt_of_not_ge
      (Nat.findGreatest_is_greatest (P := fun i => start i ≤ n) (Nat.lt_succ_self _) hlt)
  · rw [heq]
    exact hbound

/-- The later value is in a later interval, or later in the same. -/
theorem lt_iff_intervalOf {bound : ℕ → ℕ} (hmono : Monotone bound) (a b : ℕ) :
    a < b ↔ intervalOf start (bound a) a < intervalOf start (bound b) b
      ∨ intervalOf start (bound a) a = intervalOf start (bound b) b
        ∧ a - start (intervalOf start (bound a) a) < b - start (intervalOf start (bound b) b) := by
  have hle : ∀ {a b : ℕ}, a ≤ b →
      intervalOf start (bound a) a ≤ intervalOf start (bound b) b := fun hab =>
    Nat.findGreatest_mono (fun _ hi => le_trans hi hab) (hmono hab)
  have ha := start_intervalOf_le hstart (bound a) a
  constructor
  · intro hlt
    rcases (hle hlt.le).lt_or_eq with h | h
    · exact Or.inl h
    · refine Or.inr ⟨h, ?_⟩
      rw [← h]
      omega
  · rintro (h | ⟨h, hoffset⟩)
    · exact lt_of_not_ge (fun hba => not_lt.mpr (hle hba) h)
    · rw [← h] at hoffset
      omega

theorem eq_iff_intervalOf (bound : ℕ → ℕ) (a b : ℕ) :
    a = b ↔ intervalOf start (bound a) a = intervalOf start (bound b) b
      ∧ a - start (intervalOf start (bound a) a) = b - start (intervalOf start (bound b) b) := by
  constructor
  · rintro rfl
    exact ⟨rfl, rfl⟩
  · rintro ⟨h, hoffset⟩
    have ha := start_intervalOf_le hstart (bound a) a
    have hb := start_intervalOf_le hstart (bound b) b
    rw [h] at ha hoffset
    omega

end Intervals

-- ── choosing by the text ──────────────────────────────────────────────────────

/-- A value that was chosen for its text is the greatest exactly when no value has a
    text that is greater than that of the greatest. -/
theorem latest_iff {α β γ : Type} [LinearOrder β] [LinearOrder γ] (value : α → β)
    {text : β → γ} (hinj : Function.Injective text) {l : List α} {chosen : α} (hmem : chosen ∈ l)
    (hchosen : ∀ a ∈ l, text (value a) ≤ text (value chosen)) :
    (∀ a ∈ l, value a ≤ value chosen)
      ↔ ∀ m ∈ l, (∀ a ∈ l, value a ≤ value m) → ∀ a ∈ l, ¬ text (value m) < text (value a) := by
  constructor
  · intro hgreatest m hm hmax a ha hlt
    have heq : value m = value chosen := le_antisymm (hgreatest m hm) (hmax chosen hmem)
    exact not_le.mpr (heq ▸ hlt) (hchosen a ha)
  · intro hnone
    classical
    obtain ⟨m, hm, hmax⟩ := l.toFinset.exists_max_image value ⟨chosen, List.mem_toFinset.mpr hmem⟩
    rw [List.mem_toFinset] at hm
    have hmax : ∀ a ∈ l, value a ≤ value m := fun a ha => hmax a (List.mem_toFinset.mpr ha)
    have heq : text (value chosen) = text (value m) :=
      le_antisymm (le_of_not_gt (hnone m hm hmax chosen hmem)) (hchosen m hm)
    rw [hinj heq]
    exact hmax

end DevstackPrintedOrder
