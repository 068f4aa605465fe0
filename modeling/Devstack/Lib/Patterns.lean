import Mathlib.Computability.Language
import Mathlib.Data.List.TakeWhile

/-! # Patterns — languages that are read from the front of a text

    Regular expressions as languages: `one p` is a class of characters, `L * M`, `L + M`
    and `L∗` are Mathlib's.  `Reads L cs rest` says that a word of the language stands in
    front of `rest`.

    * `reads_many_mul`: a repeated class is read as far as it goes, where the next part
      begins with none of its characters;
    * `Without`: a text without the words of a language, taken out one after the other
      from the left;
    * `Spread`: a word with words of a language put into it. -/

namespace DevstackPatterns

open Computability

variable {α : Type}

/-- A class of characters. -/
def one (p : α → Bool) : Language α := {w | ∃ c, p c = true ∧ w = [c]}

theorem cons_mem_one_mul {p : α → Bool} {L : Language α} {c : α} {w : List α} :
    c :: w ∈ one p * L ↔ p c = true ∧ w ∈ L := by
  rw [Language.mem_mul]
  constructor
  · rintro ⟨-, ⟨d, hd, rfl⟩, v, hv, heq⟩
    obtain ⟨rfl, rfl⟩ := List.cons.inj heq
    exact ⟨hd, hv⟩
  · rintro ⟨hc, hw⟩
    exact ⟨[c], ⟨c, hc, rfl⟩, w, hw, rfl⟩

theorem mem_many {p : α → Bool} {w : List α} : w ∈ (one p)∗ ↔ ∀ c ∈ w, p c = true := by
  rw [Language.mem_kstar]
  constructor
  · rintro ⟨parts, rfl, hparts⟩ c hc
    obtain ⟨part, hpart, hc⟩ := List.mem_flatten.mp hc
    obtain ⟨d, hd, rfl⟩ := hparts part hpart
    rwa [List.mem_singleton.mp hc]
  · intro h
    refine ⟨w.map ([·]), by rw [← List.flatMap_def, List.flatMap_singleton'], ?_⟩
    intro part hpart
    obtain ⟨c, hc, rfl⟩ := List.mem_map.mp hpart
    exact ⟨c, h c hc, rfl⟩

-- ── reading ───────────────────────────────────────────────────────────────────

/-- A word of the language stands in front of the rest. -/
def Reads (L : Language α) (cs rest : List α) : Prop := ∃ w ∈ L, cs = w ++ rest

theorem reads_one {p : α → Bool} {cs rest : List α} :
    Reads (one p) cs rest ↔ ∃ c, p c = true ∧ cs = c :: rest := by
  constructor
  · rintro ⟨-, ⟨c, hc, rfl⟩, rfl⟩
    exact ⟨c, hc, rfl⟩
  · rintro ⟨c, hc, rfl⟩
    exact ⟨[c], ⟨c, hc, rfl⟩, rfl⟩

theorem reads_add {L M : Language α} {cs rest : List α} :
    Reads (L + M) cs rest ↔ Reads L cs rest ∨ Reads M cs rest := by
  constructor
  · rintro ⟨w, hw | hw, heq⟩
    · exact Or.inl ⟨w, hw, heq⟩
    · exact Or.inr ⟨w, hw, heq⟩
  · rintro (⟨w, hw, heq⟩ | ⟨w, hw, heq⟩)
    · exact ⟨w, Or.inl hw, heq⟩
    · exact ⟨w, Or.inr hw, heq⟩

theorem reads_mul {L M : Language α} {cs rest : List α} :
    Reads (L * M) cs rest ↔ ∃ mid, Reads L cs mid ∧ Reads M mid rest := by
  constructor
  · rintro ⟨w, hw, rfl⟩
    obtain ⟨u, hu, v, hv, rfl⟩ := Language.mem_mul.mp hw
    exact ⟨v ++ rest, ⟨u, hu, List.append_assoc ..⟩, ⟨v, hv, rfl⟩⟩
  · rintro ⟨-, ⟨u, hu, rfl⟩, ⟨v, hv, rfl⟩⟩
    exact ⟨u ++ v, Language.append_mem_mul hu hv, (List.append_assoc ..).symm⟩

theorem reads_one_mul {p : α → Bool} {L : Language α} {c : α} {cs rest : List α} :
    Reads (one p * L) (c :: cs) rest ↔ p c = true ∧ Reads L cs rest := by
  rw [reads_mul]
  constructor
  · rintro ⟨mid, hone, hrest⟩
    obtain ⟨d, hd, heq⟩ := reads_one.mp hone
    obtain ⟨rfl, rfl⟩ := List.cons.inj heq
    exact ⟨hd, hrest⟩
  · rintro ⟨hc, hrest⟩
    exact ⟨cs, reads_one.mpr ⟨c, hc, rfl⟩, hrest⟩

theorem not_reads_one_mul_nil {p : α → Bool} {L : Language α} {rest : List α} :
    ¬ Reads (one p * L) [] rest := by
  rw [reads_mul]
  rintro ⟨mid, hone, -⟩
  obtain ⟨c, -, heq⟩ := reads_one.mp hone
  exact nomatch heq

/-- A repeated class takes all it can, where what follows begins with none of it. -/
theorem reads_many_mul {p : α → Bool} {L : Language α} {cs rest : List α}
    (hL : ∀ w ∈ L, ∃ c v, w = c :: v ∧ p c = false) :
    Reads ((one p)∗ * L) cs rest ↔ Reads L (cs.dropWhile p) rest := by
  rw [reads_mul]
  constructor
  · rintro ⟨-, ⟨u, hu, rfl⟩, ⟨w, hw, rfl⟩⟩
    obtain ⟨c, v, rfl, hc⟩ := hL w hw
    rw [List.dropWhile_append_of_pos (mem_many.mp hu), List.cons_append,
      List.dropWhile_cons_of_neg (by rw [hc]; exact Bool.false_ne_true)]
    exact ⟨c :: v, hw, rfl⟩
  · intro h
    exact ⟨cs.dropWhile p, ⟨cs.takeWhile p, mem_many.mpr fun c hc => List.mem_takeWhile_imp hc,
      (List.takeWhile_append_dropWhile ..).symm⟩, h⟩

-- ── words taken out, and put in ───────────────────────────────────────────────

/-- A text without the words of the language, taken out one after the other from the
    left. -/
inductive Without (L : Language α) : List α → List α → Prop where
  | done : Without L [] []
  | keep (c : α) {cs out : List α} : (∀ w ∈ L, ¬ w <+: c :: cs) → Without L cs out →
      Without L (c :: cs) (c :: out)
  | cut {w cs out : List α} : w ∈ L → Without L cs out → Without L (w ++ cs) out

/-- Nothing else is taken out, and nothing moves. -/
theorem Without.sublist {L : Language α} {cs out : List α} (h : Without L cs out) :
    out.Sublist cs := by
  induction h with
  | done => exact List.Sublist.refl _
  | keep c _ _ ih => exact ih.cons_cons c
  | cut _ _ ih => exact ih.trans (List.sublist_append_right ..)

/-- A word with words of the language put into it. -/
inductive Spread (L : Language α) : List α → List α → Prop where
  | nil : Spread L [] []
  | keep (c : α) {word text : List α} : Spread L word text → Spread L (c :: word) (c :: text)
  | insert {w word text : List α} : w ∈ L → Spread L word text → Spread L word (w ++ text)

/-- Up to the first word put in, both are the same. -/
theorem Spread.first {L : Language α} {word text : List α} (h : Spread L word text)
    (hne : text ≠ word) :
    ∃ same rest w text', word = same ++ rest ∧ text = same ++ (w ++ text') ∧ w ∈ L := by
  induction h with
  | nil => exact absurd rfl hne
  | keep c _ ih =>
      obtain ⟨same, rest, w, text', rfl, rfl, hw⟩ := ih fun h => hne (congrArg (c :: ·) h)
      exact ⟨c :: same, rest, w, text', rfl, rfl, hw⟩
  | @insert w word text hw _ _ => exact ⟨[], word, w, text, rfl, rfl, hw⟩

end DevstackPatterns
