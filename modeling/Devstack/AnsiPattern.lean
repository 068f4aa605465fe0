import Devstack.Lib.AsciiWords
import Devstack.Lib.Patterns
import Devstack.LogFmt

/-! # ANSI pattern — what `strip_ansi` leaves

    `ANSI_RE` of `src/logfmt.rs` as a language, and `strip_ansi` against it.

    * `ansiRest_iff`: the scan takes exactly the sequences of the pattern;
    * `without_stripAnsi`: what it leaves is the text without the sequences, each taken
      out where it stands;
    * `strips_all_iff`: so a sequence is left exactly where one was interrupted by
      others, which come out of its middle. -/

namespace DevstackAnsiPattern

open Computability DevstackLogFmt DevstackPatterns
open DevstackAsciiWords (isAlpha_iff isDigit_iff)

-- ── ANSI_RE ───────────────────────────────────────────────────────────────────

/-- `\[[0-9;?]*[A-Za-z]`. -/
def csiRe : Language Char := one (· == '[') * ((one isCsiParam)∗ * one Char.isAlpha)

/-- `\x07|\x1b\\`. -/
def oscEndRe : Language Char := one (· == bel) + one (· == esc) * one (· == '\\')

/-- `\][^\x07\x1b]*(?:\x07|\x1b\\)`. -/
def oscRe : Language Char :=
  one (· == ']') * ((one (fun c => c != bel && c != esc))∗ * oscEndRe)

/-- `\([A-B]`. -/
def charsetRe : Language Char := one (· == '(') * one (fun c => c == 'A' || c == 'B')

/-- `[=>NOMDEHcZ78]`. -/
def singleRe : Language Char :=
  one (fun c => decide (c ∈ ['=', '>', 'N', 'O', 'M', 'D', 'E', 'H', 'c', 'Z', '7', '8']))

/-- What follows the escape character. -/
def bodyRe : Language Char := csiRe + oscRe + charsetRe + singleRe

def ansiRe : Language Char := one (· == esc) * bodyRe

-- ── the scan and the pattern ──────────────────────────────────────────────────

theorem csiRest_iff (cs rest : List Char) :
    csiRest cs = some rest ↔ Reads ((one isCsiParam)∗ * one Char.isAlpha) cs rest := by
  have hstart : ∀ w ∈ one Char.isAlpha, ∃ c v, w = c :: v ∧ isCsiParam c = false := by
    rintro - ⟨c, hc, rfl⟩
    refine ⟨c, [], rfl, ?_⟩
    have hdigit : c.isDigit = false := by
      rw [Bool.eq_false_iff, Ne, isDigit_iff]
      rw [isAlpha_iff] at hc
      omega
    rw [isCsiParam, hdigit, Bool.false_or, Bool.or_eq_false_iff, beq_eq_false_iff_ne,
      beq_eq_false_iff_ne]
    constructor
    · rintro rfl
      exact absurd hc (by decide)
    · rintro rfl
      exact absurd hc (by decide)
  rw [reads_many_mul hstart, reads_one, csiRest]
  cases cs.dropWhile isCsiParam with
  | nil => simp
  | cons c tail =>
      show (if c.isAlpha then some tail else none) = some rest ↔ _
      by_cases hc : c.isAlpha = true
      · rw [if_pos hc, Option.some.injEq]
        constructor
        · rintro rfl
          exact ⟨c, hc, rfl⟩
        · rintro ⟨d, -, heq⟩
          exact (List.cons.inj heq).2
      · rw [if_neg hc]
        constructor
        · exact fun h => by cases h
        · rintro ⟨d, hd, heq⟩
          rw [(List.cons.inj heq).1] at hc
          exact absurd hd hc

theorem oscRest_iff (cs rest : List Char) :
    oscRest cs = some rest
      ↔ Reads ((one (fun c => c != bel && c != esc))∗ * oscEndRe) cs rest := by
  have hstart : ∀ w ∈ oscEndRe, ∃ c v, w = c :: v ∧ (c != bel && c != esc) = false := by
    rintro w (⟨c, hc, rfl⟩ | hw)
    · exact ⟨c, [], rfl, by rw [beq_iff_eq.mp hc]; rfl⟩
    · cases w with
      | nil => exact absurd ⟨[], hw, rfl⟩ not_reads_one_mul_nil
      | cons c w =>
          refine ⟨c, w, rfl, ?_⟩
          rw [beq_iff_eq.mp (cons_mem_one_mul.mp hw).1]
          rfl
  rw [reads_many_mul hstart, oscRest, oscEndRe, reads_add, reads_one]
  cases hdrop : cs.dropWhile (fun c => c != bel && c != esc) with
  | nil => simp [not_reads_one_mul_nil]
  | cons c tail =>
      rw [reads_one_mul, reads_one]
      show (if c = bel then some tail else _) = some rest ↔ _
      by_cases hbel : c = bel
      · subst hbel
        rw [if_pos rfl, Option.some.injEq]
        constructor
        · rintro rfl
          exact Or.inl ⟨bel, rfl, rfl⟩
        · rintro (⟨d, -, heq⟩ | ⟨hesc, -⟩)
          · exact (List.cons.inj heq).2
          · exact absurd hesc (by decide)
      · have hesc : c = esc := by
          have hhead := List.head?_dropWhile_not (fun c => c != bel && c != esc) cs
          rw [hdrop] at hhead
          simpa [hbel] using hhead
        subst hesc
        rw [if_neg hbel]
        constructor
        · intro h
          split at h
          · exact Or.inr ⟨rfl, '\\', rfl, congrArg _ (Option.some.inj h)⟩
          · cases h
        · rintro (⟨d, hd, heq⟩ | ⟨-, d, hd, rfl⟩)
          · rw [← (List.cons.inj heq).1] at hd
            exact absurd hd (by decide)
          · rw [beq_iff_eq.mp hd]
            rfl

/-- Only a text that begins like this is read by the pattern. -/
theorem reads_bodyRe_cons (c : Char) (cs rest : List Char) :
    Reads bodyRe (c :: cs) rest
      ↔ c = '[' ∧ csiRest cs = some rest ∨ c = ']' ∧ oscRest cs = some rest
        ∨ c = '(' ∧ (∃ d, (d = 'A' ∨ d = 'B') ∧ cs = d :: rest)
        ∨ c ∈ ['=', '>', 'N', 'O', 'M', 'D', 'E', 'H', 'c', 'Z', '7', '8'] ∧ cs = rest := by
  rw [bodyRe, reads_add, reads_add, reads_add, csiRe, oscRe, charsetRe, singleRe, reads_one_mul,
    reads_one_mul, reads_one_mul, reads_one, reads_one, ← csiRest_iff, ← oscRest_iff]
  simp only [beq_iff_eq, Bool.or_eq_true, decide_eq_true_eq, or_assoc]
  refine or_congr_right (or_congr_right (or_congr_right ⟨?_, ?_⟩))
  · rintro ⟨d, hd, heq⟩
    obtain ⟨rfl, rfl⟩ := List.cons.inj heq
    exact ⟨hd, rfl⟩
  · rintro ⟨hc, rfl⟩
    exact ⟨c, hc, rfl⟩

/-- **THE SCAN IS THE PATTERN**: at an escape character it takes what the pattern
    matches there, and there is at most one such sequence. -/
theorem ansiRest_iff (cs rest : List Char) : ansiRest cs = some rest ↔ Reads bodyRe cs rest := by
  cases cs with
  | nil =>
      refine ⟨fun h => (nomatch h), fun h => ?_⟩
      rw [bodyRe, reads_add, reads_add, reads_add] at h
      rcases h with ((h | h) | h) | h
      · exact absurd h not_reads_one_mul_nil
      · exact absurd h not_reads_one_mul_nil
      · exact absurd h not_reads_one_mul_nil
      · obtain ⟨c, -, heq⟩ := reads_one.mp h
        exact nomatch heq
  | cons c cs =>
      rw [reads_bodyRe_cons]
      by_cases hcsi : c = '['
      · subst hcsi
        simp [ansiRest]
      · by_cases hosc : c = ']'
        · subst hosc
          simp [ansiRest]
        · by_cases hset : c = '('
          · subst hset
            cases cs with
            | nil => simp [ansiRest]
            | cons d cs =>
                by_cases hd : d = 'A' ∨ d = 'B'
                · have hrest : ansiRest ('(' :: d :: cs) = some cs := if_pos hd
                  simp [hrest, ← or_and_right, hd]
                · have hrest : ansiRest ('(' :: d :: cs) = none := if_neg hd
                  rw [not_or] at hd
                  simp [hrest, hd.1, hd.2]
          · have hother : ansiRest (c :: cs)
                = if c ∈ ['=', '>', 'N', 'O', 'M', 'D', 'E', 'H', 'c', 'Z', '7', '8'] then some cs
                  else none := by
              rw [ansiRest]
              · exact hcsi
              · exact hosc
              · intro d rest heq
                exact absurd heq hset
            rw [hother]
            by_cases hsingle : c ∈ ['=', '>', 'N', 'O', 'M', 'D', 'E', 'H', 'c', 'Z', '7', '8']
            · rw [if_pos hsingle]
              simp only [hcsi, hosc, hset, false_and, false_or, true_and, Option.some.injEq,
                hsingle]
            · rw [if_neg hsingle]
              simp only [hcsi, hosc, hset, false_and, false_or, hsingle, reduceCtorEq]

-- ── the words of the pattern ──────────────────────────────────────────────────

theorem mem_ansiRe_iff {w : List Char} : w ∈ ansiRe ↔ ∃ t ∈ bodyRe, w = esc :: t := by
  cases w with
  | nil =>
      refine ⟨fun h => absurd ⟨[], h, rfl⟩ not_reads_one_mul_nil, ?_⟩
      rintro ⟨t, -, heq⟩
      exact nomatch heq
  | cons c w =>
      rw [ansiRe, cons_mem_one_mul, beq_iff_eq]
      constructor
      · rintro ⟨rfl, hw⟩
        exact ⟨w, hw, rfl⟩
      · rintro ⟨t, ht, heq⟩
        obtain ⟨rfl, rfl⟩ := List.cons.inj heq
        exact ⟨rfl, ht⟩

/-- No sequence is the beginning of another. -/
theorem body_unique {t u x y : List Char} (ht : t ∈ bodyRe) (hu : u ∈ bodyRe)
    (h : t ++ x = u ++ y) : t = u := by
  have hx := (ansiRest_iff (t ++ x) x).mpr ⟨t, ht, rfl⟩
  have hy := (ansiRest_iff (t ++ x) y).mpr ⟨u, hu, h⟩
  obtain rfl := Option.some.inj (hx.symm.trans hy)
  exact List.append_cancel_right h

theorem body_begins {t : List Char} (h : t ∈ bodyRe) :
    ∃ c u, t = c :: u ∧ c ≠ esc ∧ c ≠ '\\' := by
  have hreads : Reads bodyRe t [] := ⟨t, h, (List.append_nil t).symm⟩
  cases t with
  | nil => exact nomatch (ansiRest_iff [] []).mpr hreads
  | cons c u =>
      refine ⟨c, u, rfl, ?_⟩
      rcases (reads_bodyRe_cons c u []).mp hreads with ⟨rfl, -⟩ | ⟨rfl, -⟩ | ⟨rfl, -⟩ | ⟨hc, -⟩
      · decide
      · decide
      · decide
      · constructor
        · rintro rfl
          exact absurd hc (by decide)
        · rintro rfl
          exact absurd hc (by decide)

theorem esc_not_param {u : List Char} (h : u ∈ (one isCsiParam)∗) : esc ∉ u := fun hmem =>
  absurd (mem_many.mp h esc hmem) (by decide)

/-- The only escape character in a sequence, but for the first, is in front of its last
    character, a backslash. -/
theorem esc_in_body {t a b : List Char} (h : t ∈ bodyRe) (hsplit : t = a ++ esc :: b) :
    b = ['\\'] := by
  have hesc : esc ∈ t := by rw [hsplit]; simp
  rcases h with ((h | h) | h) | h
  · obtain ⟨-, ⟨c, hc, rfl⟩, -, ⟨u, hu, -, ⟨d, hd, rfl⟩, rfl⟩, rfl⟩ := h
    simp only [List.mem_append, List.mem_singleton] at hesc
    rcases hesc with rfl | hesc | rfl
    · exact absurd hc (by decide)
    · exact absurd hesc (esc_not_param hu)
    · exact absurd hd (by decide)
  · obtain ⟨-, ⟨c, hc, rfl⟩, -, ⟨u, hu, v, hv, rfl⟩, rfl⟩ := h
    have hfront : esc ∉ [c] ++ u := by
      intro hmem
      rcases List.mem_append.mp hmem with hmem | hmem
      · rw [← List.mem_singleton.mp hmem] at hc
        exact absurd hc (by decide)
      · exact absurd (mem_many.mp hu esc hmem) (by decide)
    change esc ∈ [c] ++ (u ++ v) at hesc
    change [c] ++ (u ++ v) = a ++ esc :: b at hsplit
    rw [← List.append_assoc] at hesc hsplit
    rcases hv with ⟨d, hd, rfl⟩ | ⟨-, ⟨d, hd, rfl⟩, -, ⟨e, he, rfl⟩, rfl⟩
    · rcases List.mem_append.mp hesc with hmem | hmem
      · exact absurd hmem hfront
      · rw [← List.mem_singleton.mp hmem] at hd
        exact absurd hd (by decide)
    · obtain rfl := beq_iff_eq.mp hd
      obtain rfl := beq_iff_eq.mp he
      exact ((List.append_cons_inj_of_notMem hfront (by decide)).mp hsplit).2.2.symm
  · obtain ⟨-, ⟨c, hc, rfl⟩, -, ⟨d, hd, rfl⟩, rfl⟩ := h
    simp only [List.mem_append, List.mem_singleton] at hesc
    rcases hesc with rfl | rfl
    · exact absurd hc (by decide)
    · exact absurd hd (by decide)
  · obtain ⟨c, hc, rfl⟩ := h
    rw [← List.mem_singleton.mp hesc] at hc
    exact absurd hc (by decide)

-- ── what is left ──────────────────────────────────────────────────────────────

/-- No sequence stands in front of a text. -/
theorem ansiRest_none_iff {cs : List Char} :
    ansiRest cs = none ↔ ∀ w ∈ ansiRe, ¬ w <+: esc :: cs := by
  constructor
  · rintro hnone w hw ⟨rest, heq⟩
    obtain ⟨t, ht, rfl⟩ := mem_ansiRe_iff.mp hw
    have hsome := (ansiRest_iff cs rest).mpr ⟨t, ht, (List.cons.inj heq).2.symm⟩
    rw [hnone] at hsome
    exact nomatch hsome
  · intro h
    cases hrest : ansiRest cs with
    | none => rfl
    | some rest =>
        obtain ⟨t, ht, rfl⟩ := (ansiRest_iff cs rest).mp hrest
        exact absurd ⟨rest, rfl⟩ (h (esc :: t) (mem_ansiRe_iff.mpr ⟨t, ht, rfl⟩))

/-- A text begins with a sequence, which is taken out, or its first character stays. -/
theorem stripAnsi_cases (c : Char) (cs : List Char) :
    (∃ t ∈ bodyRe, ∃ rest, c = esc ∧ cs = t ++ rest ∧ stripAnsi (c :: cs) = stripAnsi rest)
      ∨ (∀ w ∈ ansiRe, ¬ w <+: c :: cs) ∧ stripAnsi (c :: cs) = c :: stripAnsi cs := by
  rw [stripAnsi_cons]
  by_cases hc : c = esc
  · subst hc
    rw [if_pos rfl]
    cases hrest : ansiRest cs with
    | none => exact Or.inr ⟨ansiRest_none_iff.mp hrest, rfl⟩
    | some rest =>
        obtain ⟨t, ht, hcs⟩ := (ansiRest_iff cs rest).mp hrest
        exact Or.inl ⟨t, ht, rest, rfl, hcs, rfl⟩
  · rw [if_neg hc]
    refine Or.inr ⟨fun w hw hprefix => ?_, rfl⟩
    obtain ⟨t, -, rfl⟩ := mem_ansiRe_iff.mp hw
    exact hc (List.cons_prefix_cons.mp hprefix).1.symm

theorem stripAnsi_keep {c : Char} {cs : List Char} (h : ∀ w ∈ ansiRe, ¬ w <+: c :: cs) :
    stripAnsi (c :: cs) = c :: stripAnsi cs := by
  rcases stripAnsi_cases c cs with ⟨t, ht, rest, rfl, rfl, -⟩ | ⟨-, heq⟩
  · exact absurd ⟨rest, rfl⟩ (h (esc :: t) (mem_ansiRe_iff.mpr ⟨t, ht, rfl⟩))
  · exact heq

theorem stripAnsi_cut {w : List Char} (hw : w ∈ ansiRe) (rest : List Char) :
    stripAnsi (w ++ rest) = stripAnsi rest := by
  obtain ⟨t, ht, rfl⟩ := mem_ansiRe_iff.mp hw
  rw [List.cons_append, stripAnsi_cons, if_pos rfl,
    (ansiRest_iff (t ++ rest) rest).mpr ⟨t, ht, rfl⟩]

/-- What is left is the text without its sequences. -/
theorem without_stripAnsi (input : List Char) : Without ansiRe input (stripAnsi input) := by
  induction hn : input.length using Nat.strong_induction_on generalizing input with
  | _ n ih =>
      cases input with
      | nil => exact Without.done
      | cons c cs =>
          rw [List.length_cons] at hn
          rcases stripAnsi_cases c cs with ⟨t, ht, rest, rfl, rfl, heq⟩ | ⟨hkeep, heq⟩
          · rw [heq, ← List.cons_append]
            refine Without.cut (mem_ansiRe_iff.mpr ⟨t, ht, rfl⟩) (ih rest.length ?_ rest rfl)
            rw [← hn, List.length_append]
            omega
          · rw [heq]
            exact Without.keep c hkeep (ih cs.length (by omega) cs rfl)

/-- A text without sequences stays as it is. -/
theorem stripAnsi_of_none {input : List Char} (h : ∀ w ∈ ansiRe, ¬ w <:+: input) :
    stripAnsi input = input := by
  induction input with
  | nil => rfl
  | cons c cs ih =>
      rw [stripAnsi_keep fun w hw hprefix => h w hw hprefix.isInfix,
        ih fun w hw hinside => h w hw (hinside.trans (List.suffix_cons c cs).isInfix)]

-- ── what is asked of it ───────────────────────────────────────────────────────

/-- No sequence is left, a second time changes nothing, and what is outside of the
    sequences is kept in order. -/
structure StripsAll (input : List Char) : Prop where
  noneLeft : ∀ w ∈ ansiRe, ¬ w <:+: stripAnsi input
  again : stripAnsi (stripAnsi input) = stripAnsi input
  sublist : (stripAnsi input).Sublist input
  outside : Without ansiRe input (stripAnsi input)

/-- A sequence that others interrupt in its middle. -/
def Interrupted (text : List Char) : Prop :=
  ∃ word mid d, text = esc :: (mid ++ [d]) ∧ word ++ [d] ∈ bodyRe ∧ Spread ansiRe word mid
    ∧ mid ≠ word

-- ── sequences in what is left ─────────────────────────────────────────────────

/-- The beginning of what is left, up to a character, stands in the text with sequences
    in between. -/
theorem spread_of_left {word : List Char} {d : Char} {cs : List Char}
    (h : word ++ [d] <+: stripAnsi cs) :
    ∃ mid, mid ++ [d] <+: cs ∧ Spread ansiRe word mid := by
  induction hn : cs.length using Nat.strong_induction_on generalizing cs word with
  | _ n ih =>
      cases cs with
      | nil =>
          rw [show stripAnsi [] = [] from rfl, List.prefix_nil] at h
          exact absurd h (by simp)
      | cons c cs =>
          rw [List.length_cons] at hn
          rcases stripAnsi_cases c cs with ⟨t, ht, rest, rfl, rfl, heq⟩ | ⟨-, heq⟩
          · rw [heq] at h
            obtain ⟨mid, ⟨x, hx⟩, hspread⟩ := ih rest.length
              (by rw [← hn, List.length_append]; omega) h rfl
            refine ⟨(esc :: t) ++ mid, ⟨x, ?_⟩,
              Spread.insert (mem_ansiRe_iff.mpr ⟨t, ht, rfl⟩) hspread⟩
            rw [← hx]
            simp
          · rw [heq] at h
            cases word with
            | nil =>
                obtain ⟨rfl, -⟩ := List.cons_prefix_cons.mp h
                exact ⟨[], ⟨cs, rfl⟩, Spread.nil⟩
            | cons e word =>
                rw [List.cons_append, List.cons_prefix_cons] at h
                obtain ⟨rfl, h⟩ := h
                obtain ⟨mid, hmid, hspread⟩ := ih cs.length (by omega) h rfl
                exact ⟨e :: mid, List.cons_prefix_cons.mpr ⟨rfl, hmid⟩, Spread.keep e hspread⟩

/-- A sequence that is left was interrupted. -/
theorem interrupted_of_left {input w : List Char} (hw : w ∈ ansiRe) (h : w <:+: stripAnsi input) :
    ∃ p, p <:+: input ∧ Interrupted p := by
  induction hn : input.length using Nat.strong_induction_on generalizing input with
  | _ n ih =>
      obtain ⟨t, ht, rfl⟩ := mem_ansiRe_iff.mp hw
      cases input with
      | nil =>
          rw [show stripAnsi [] = [] from rfl, List.infix_nil] at h
          exact nomatch h
      | cons c cs =>
          rw [List.length_cons] at hn
          rcases stripAnsi_cases c cs with ⟨u, -, rest, rfl, rfl, heq⟩ | ⟨hkeep, heq⟩
          · rw [heq] at h
            obtain ⟨p, hp, hinterrupted⟩ := ih rest.length
              (by rw [← hn, List.length_append]; omega) h rfl
            exact ⟨p, hp.trans (List.suffix_append (esc :: u) rest).isInfix, hinterrupted⟩
          · rw [heq, List.infix_cons_iff] at h
            rcases h with h | h
            · obtain ⟨rfl, hprefix⟩ := List.cons_prefix_cons.mp h
              obtain ⟨first, u, rfl, -⟩ := body_begins ht
              rcases List.eq_nil_or_concat (first :: u) with hnil | ⟨word, d, hword⟩
              · exact nomatch hnil
              · rw [List.concat_eq_append] at hword
                rw [hword] at hprefix ht
                obtain ⟨mid, hmid, hspread⟩ := spread_of_left hprefix
                refine ⟨esc :: (mid ++ [d]), (List.cons_prefix_cons.mpr ⟨rfl, hmid⟩).isInfix,
                  word, mid, d, rfl, ht, hspread, ?_⟩
                -- otherwise it would have been taken out
                rintro rfl
                exact hkeep _ (mem_ansiRe_iff.mpr ⟨_, ht, rfl⟩)
                  (List.cons_prefix_cons.mpr ⟨rfl, hmid⟩)
            · obtain ⟨p, hp, hinterrupted⟩ := ih cs.length (by omega) h rfl
              exact ⟨p, hp.trans (List.suffix_cons c cs).isInfix, hinterrupted⟩

-- ── interrupted sequences are left ────────────────────────────────────────────

theorem ansiRest_esc (cs : List Char) : ansiRest (esc :: cs) = none := by
  rw [ansiRest]
  · rfl
  · decide
  · decide
  · intro c rest heq
    exact absurd heq (by decide)

theorem ansiRest_backslash (cs : List Char) : ansiRest ('\\' :: cs) = none := by
  rw [ansiRest]
  · rfl
  · decide
  · decide
  · intro c rest heq
    exact absurd heq (by decide)

/-- Sequences put between nothing. -/
theorem spread_nil {text : List Char} (h : Spread ansiRe [] text) :
    text = [] ∨ ∃ rest, text = esc :: rest := by
  cases h with
  | nil => exact Or.inl rfl
  | insert hw _ =>
      obtain ⟨t, -, rfl⟩ := mem_ansiRe_iff.mp hw
      exact Or.inr ⟨_, rfl⟩

theorem stripAnsi_plain_cons {c : Char} (hc : c ≠ esc) (cs : List Char) :
    stripAnsi (c :: cs) = c :: stripAnsi cs := by
  rw [stripAnsi_cons, if_neg hc]

theorem stripAnsi_esc_cons {cs : List Char} (h : ansiRest cs = none) :
    stripAnsi (esc :: cs) = esc :: stripAnsi cs := by
  rw [stripAnsi_cons, if_pos rfl, h]

/-- The scan takes out what was put in and keeps the rest of the sequence. -/
theorem stripAnsi_spread {word mid : List Char} {d : Char} (h : Spread ansiRe word mid)
    (hd : d ≠ esc) (hesc : ∀ a b, word ++ [d] = a ++ esc :: b → b = ['\\']) (x : List Char) :
    stripAnsi (mid ++ d :: x) = word ++ d :: stripAnsi x := by
  induction h with
  | nil => exact stripAnsi_plain_cons hd x
  | @keep c word mid hspread ih =>
      have ih := ih fun a b hab => hesc (c :: a) b (by rw [List.cons_append, hab]; rfl)
      by_cases hc : c = esc
      · -- the escape character in front of the last backslash
        subst hc
        have hlast : word ++ [d] = ['\\'] := hesc [] (word ++ [d]) rfl
        have hword : word = [] := by
          have hlength := congrArg List.length hlast
          rw [List.length_append] at hlength
          exact List.length_eq_zero_iff.mp (by simpa using hlength)
        subst hword
        obtain rfl : d = '\\' := List.singleton_inj.mp hlast
        have hnone : ansiRest (mid ++ '\\' :: x) = none := by
          rcases spread_nil hspread with rfl | ⟨rest, rfl⟩
          · exact ansiRest_backslash x
          · exact ansiRest_esc _
        rw [List.cons_append, stripAnsi_esc_cons hnone, ih]
        rfl
      · rw [List.cons_append, stripAnsi_plain_cons hc, ih]
        rfl
  | @insert w word mid hw _ ih =>
      rw [List.append_assoc, stripAnsi_cut hw]
      exact ih hesc

/-- Where a sequence was interrupted, none stands. -/
theorem ansiRest_interrupted {word mid : List Char} {d : Char} (ht : word ++ [d] ∈ bodyRe)
    (hspread : Spread ansiRe word mid) (hne : mid ≠ word) (x : List Char) :
    ansiRest (mid ++ d :: x) = none := by
  obtain ⟨same, rest, w, text, rfl, rfl, hw⟩ := hspread.first hne
  obtain ⟨u, hu, rfl⟩ := mem_ansiRe_iff.mp hw
  obtain ⟨e, v, rfl, -, hbackslash⟩ := body_begins hu
  cases hrest : ansiRest (same ++ (esc :: e :: v ++ text) ++ d :: x) with
  | none => rfl
  | some y =>
      exfalso
      obtain ⟨t, htBody, heq⟩ := (ansiRest_iff _ _).mp hrest
      simp only [List.append_assoc, List.cons_append] at heq ht
      -- it is longer than what was not interrupted yet
      have hlonger : ∀ z, same ≠ t ++ z := by
        rintro z rfl
        have hunique := body_unique htBody ht (x := z ++ (rest ++ [d])) (y := []) (by simp)
        have hlength := congrArg List.length hunique
        simp only [List.length_append, List.length_singleton] at hlength
        omega
      rcases List.append_eq_append_iff.mp heq with ⟨z, hz, htail⟩ | ⟨z, hz, -⟩
      · cases z with
        | nil => exact hlonger [] (by simpa using hz.symm)
        | cons c z =>
            -- so it would go on behind the escape character with a backslash
            obtain ⟨hc, hrestTail⟩ := List.cons.inj htail
            rw [← hc] at hz
            rw [esc_in_body htBody hz] at hrestTail
            exact hbackslash (List.cons.inj hrestTail).1
      · exact hlonger z hz

/-- An interrupted sequence begins where no sequence goes on. -/
theorem second_of_interrupted {p : List Char} (h : Interrupted p) :
    ∃ c q, p = esc :: c :: q ∧ c ≠ '\\' := by
  obtain ⟨word, mid, d, rfl, ht, hspread, hne⟩ := h
  obtain ⟨e, u, heq, -, hbackslash⟩ := body_begins ht
  cases hspread with
  | nil => exact absurd rfl hne
  | keep c hspread =>
      rw [List.cons_append, List.cons.injEq] at heq
      exact ⟨c, _, rfl, heq.1 ▸ hbackslash⟩
  | insert hw _ =>
      obtain ⟨t, -, rfl⟩ := mem_ansiRe_iff.mp hw
      exact ⟨esc, _, rfl, by decide⟩

/-- An interrupted sequence is left. -/
theorem left_of_interrupted {input p : List Char} (hp : p <:+: input) (h : Interrupted p) :
    ∃ w ∈ ansiRe, w <:+: stripAnsi input := by
  induction hn : input.length using Nat.strong_induction_on generalizing input with
  | _ n ih =>
      cases input with
      | nil =>
          obtain ⟨c, q, rfl, -⟩ := second_of_interrupted h
          exact nomatch List.infix_nil.mp hp
      | cons c cs =>
          rw [List.length_cons] at hn
          rw [List.infix_cons_iff] at hp
          rcases hp with hp | hp
          · obtain ⟨word, mid, d, rfl, ht, hspread, hne⟩ := h
            obtain ⟨rfl, x, rfl⟩ := List.cons_prefix_cons.mp hp
            have hd : d ≠ esc := by
              rintro rfl
              exact nomatch esc_in_body ht rfl
            have hleft := stripAnsi_spread hspread hd (fun a b hab => esc_in_body ht hab) x
            rw [List.append_assoc, List.singleton_append,
              stripAnsi_esc_cons (ansiRest_interrupted ht hspread hne x), hleft]
            refine ⟨esc :: (word ++ [d]), mem_ansiRe_iff.mpr ⟨_, ht, rfl⟩, List.IsPrefix.isInfix ?_⟩
            exact ⟨stripAnsi x, by simp⟩
          · rcases stripAnsi_cases c cs with ⟨t, ht, rest, rfl, rfl, heq⟩ | ⟨-, heq⟩
            · -- it does not begin within the sequence that is taken out
              obtain ⟨e, q, rfl, hbackslash⟩ := second_of_interrupted h
              obtain ⟨u, v, huv⟩ := hp
              have hrest : esc :: e :: q <:+: rest := by
                rw [List.append_assoc, List.cons_append] at huv
                rcases List.append_eq_append_iff.mp huv with ⟨z, hz, htail⟩ | ⟨z, hz, htail⟩
                · cases z with
                  | nil => exact ⟨[], v, by simpa using htail⟩
                  | cons d z =>
                      obtain ⟨hd, hrestTail⟩ := List.cons.inj htail
                      rw [← hd] at hz
                      rw [esc_in_body ht hz] at hrestTail
                      exact absurd (List.cons.inj hrestTail).1 hbackslash
                · exact ⟨z, v, by rw [htail, List.append_assoc]; rfl⟩
              rw [heq]
              exact ih rest.length (by rw [← hn, List.length_append]; omega) hrest rfl
            · obtain ⟨w, hw, hinside⟩ := ih cs.length (by omega) hp rfl
              rw [heq]
              exact ⟨w, hw, hinside.trans (List.suffix_cons c _).isInfix⟩

/-- **NOTHING IS LEFT** of the sequences of a text exactly if none of them was interrupted
    by others. -/
theorem strips_all_iff (input : List Char) :
    StripsAll input ↔ ∀ p, p <:+: input → ¬ Interrupted p := by
  constructor
  · intro h p hp hinterrupted
    obtain ⟨w, hw, hinside⟩ := left_of_interrupted hp hinterrupted
    exact h.noneLeft w hw hinside
  · intro h
    have hnone : ∀ w ∈ ansiRe, ¬ w <:+: stripAnsi input := by
      intro w hw hinside
      obtain ⟨p, hp, hinterrupted⟩ := interrupted_of_left hw hinside
      exact h p hp hinterrupted
    exact ⟨hnone, stripAnsi_of_none hnone, (without_stripAnsi input).sublist,
      without_stripAnsi input⟩

/-- **A SEQUENCE IS LEFT** of two of which one stands in the other. -/
theorem interrupted_left : ¬ StripsAll "\x1b\x1b[0m[0m".toList := by
  intro h
  have hleft : stripAnsi "\x1b\x1b[0m[0m".toList = "\x1b[0m".toList := by decide
  have hagain := h.again
  rw [hleft] at hagain
  exact absurd hagain (by decide)

end DevstackAnsiPattern
