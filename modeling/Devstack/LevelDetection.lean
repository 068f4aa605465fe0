import Devstack.Lib.AsciiWords
import Devstack.Lib.Patterns
import Devstack.LogLevels

/-! # Level detection — a byte scan before two patterns

    `detect_log_level` of `src/logfmt.rs` looks for keywords with a scan of the bytes, and
    asks two regular expressions only where the scan says info.  `detect_iff` says what
    comes out in words of the message; the expressions tell no more errors and warnings,
    for where one of them finds such a level it is a word of the message, which the scan
    has seen. -/

namespace DevstackLevelDetection

open DevstackModel DevstackLogFmt DevstackLogLine DevstackLogLevels DevstackPatterns
open DevstackAsciiWords Computability

-- ── words of a message ────────────────────────────────────────────────────────

/-- An ASCII letter, a digit or an underscore. -/
def wordCharacter (c : Char) : Bool := c.isAlphanum || c == '_'

/-- The message contains the keyword as a whole word, in any case. -/
def HasWord (keyword message : String) : Prop :=
  WordIn wordCharacter Char.toLower keyword.toList message.toList

def errorWords : List String := ["error", "fatal", "panic", "exception", "traceback"]

def warnWords : List String := ["warn", "warning"]

theorem ascii_cases {P : Char → Prop} (h : ∀ n : Fin 128, P (Char.ofNat n)) (c : Char)
    (hc : c.toNat < 0x80) : P c := by
  have hofNat := h ⟨c.toNat, hc⟩
  rwa [Char.ofNat_toNat] at hofNat

theorem not_wordCharacter {c : Char}
    (h : ¬ (48 ≤ c.toNat ∧ c.toNat ≤ 57) ∧ ¬ (65 ≤ c.toNat ∧ c.toNat ≤ 90) ∧ c.toNat ≠ 95
      ∧ ¬ (97 ≤ c.toNat ∧ c.toNat ≤ 122)) : wordCharacter c = false := by
  rw [wordCharacter, ← Bool.not_eq_true, Bool.or_eq_true, isAlphanum_iff, isAlpha_iff, isDigit_iff,
    beq_iff_eq]
  rintro (halnum | rfl)
  · omega
  · exact h.2.2.1 rfl

theorem sameCase : SameCase wordCharacter Char.toLower isWordChar lowerByte where
  part_eq := ascii_cases (by decide)
  part_high := fun c hc => not_wordCharacter (by omega)
  part_high_byte := fun b hb => by
    rw [UInt8.le_iff_toNat_le] at hb
    have hne : b ≠ 0x5F := by
      rintro rfl
      exact absurd hb (by decide)
    simp only [isWordChar, UInt8.le_iff_toNat_le, Bool.or_eq_false_iff, Bool.and_eq_false_iff,
      decide_eq_false_iff_not, beq_eq_false_iff_ne]
    simp at hb
    refine ⟨⟨⟨?_, ?_⟩, ?_⟩, hne⟩ <;> simp <;> omega
  lower_eq := ascii_cases (by decide)
  lower_ascii := ascii_cases (by decide)
  lower_high := fun c hc => by
    rcases toLower_cases c with h | ⟨-, hhigh, -⟩
    · rwa [h]
    · omega
  lower_high_byte := fun b hb => by
    rw [lowerByte, if_neg]
    · exact hb
    · rintro ⟨-, hle⟩
      exact absurd (UInt8.le_trans hb hle) (by decide)

-- ── the scan ──────────────────────────────────────────────────────────────────

theorem hasWordBoundaries_iff {front word back bytes : List UInt8}
    (hbytes : bytes = front ++ (word ++ back)) :
    hasWordBoundaries bytes front.length (front.length + word.length) = true
      ↔ front.getLast?.any isWordChar = false ∧ back.head?.any isWordChar = false := by
  have hbefore : (front.length == 0 || !(bytes[front.length - 1]?.any isWordChar))
      = !(front.getLast?.any isWordChar) := by
    rcases List.eq_nil_or_concat front with rfl | ⟨init, b, rfl⟩
    · rfl
    · subst hbytes
      simp
  have hafter : (front.length + word.length == bytes.length
      || !(bytes[front.length + word.length]?.any isWordChar)) = !(back.head?.any isWordChar) := by
    subst hbytes
    cases back with
    | nil => simp
    | cons b back =>
        rw [List.getElem?_append_right (Nat.le_add_right ..), Nat.add_sub_cancel_left,
          List.getElem?_append_right (Nat.le_refl _), Nat.sub_self]
        simp
  rw [hasWordBoundaries, hbefore, hafter, Bool.and_eq_true, Bool.not_eq_true', Bool.not_eq_true']

/-- The scan finds a keyword where it stands as a word. -/
theorem contains_iff {bytes keyword : List UInt8} (hlower : keyword.map lowerByte = keyword) :
    containsKeywordCaseInsensitive bytes keyword = true
      ↔ WordIn isWordChar lowerByte keyword bytes := by
  rw [containsKeywordCaseInsensitive, hlower]
  constructor
  · intro h
    split at h
    · exact nomatch h
    · next hlong =>
        obtain ⟨start, hstart, hfound⟩ := List.any_eq_true.mp h
        rw [Bool.and_eq_true, beq_iff_eq] at hfound
        obtain ⟨hword, hboundaries⟩ := hfound
        have hstart := List.mem_range.mp hstart
        have hcut : bytes = bytes.take start
            ++ ((bytes.drop start).take keyword.length ++ (bytes.drop start).drop keyword.length) := by
          rw [List.take_append_drop, List.take_append_drop]
        have hfront : (bytes.take start).length = start := List.length_take_of_le (by omega)
        have hlen : ((bytes.drop start).take keyword.length).length = keyword.length :=
          List.length_take_of_le (by rw [List.length_drop]; omega)
        have hiff := hasWordBoundaries_iff hcut
        rw [hfront, hlen] at hiff
        exact ⟨_, _, _, hcut, hword, hiff.mp hboundaries⟩
  · rintro ⟨front, word, back, hbytes, hword, hends⟩
    have hlen : word.length = keyword.length := by
      rw [← hword, List.length_map]
    have htotal : bytes.length = front.length + (word.length + back.length) := by
      rw [hbytes, List.length_append, List.length_append]
    rw [if_neg (by omega)]
    refine List.any_eq_true.mpr ⟨front.length, List.mem_range.mpr (by omega), ?_⟩
    have hat : (bytes.drop front.length).take keyword.length = word := by
      rw [hbytes, List.drop_left, ← hlen, List.take_left]
    rw [hat, hword, beq_self_eq_true, Bool.true_and, ← hlen]
    exact (hasWordBoundaries_iff hbytes).mpr hends

/-- The scan of the bytes looks for words of the message. -/
theorem contains_message_iff {keyword : String} (hkeyword : keyword ∈ errorWords ++ warnWords)
    (message : String) :
    containsKeywordCaseInsensitive message.toUTF8.toList keyword.toUTF8.toList = true
      ↔ HasWord keyword message := by
  have hwords : ∀ word ∈ errorWords ++ warnWords, word.toList ≠ []
      ∧ word.toList.all (·.toNat < 0x80) = true
      ∧ (word.toList.map asciiByte).map lowerByte = word.toList.map asciiByte := by decide
  obtain ⟨hne, hall, hlower⟩ := hwords keyword hkeyword
  have hascii : ∀ c ∈ keyword.toList, c.toNat < 0x80 := by
    simpa only [List.all_eq_true, decide_eq_true_eq] using hall
  rw [toUTF8_toList, toUTF8_toList, contains_iff (by rwa [utf8_ascii hascii])]
  exact sameCase.wordIn_utf8 hne hascii message.toList

theorem any_contains_iff {words : List String} (hwords : words ⊆ errorWords ++ warnWords)
    (message : String) :
    words.any (fun keyword => containsKeywordCaseInsensitive message.toUTF8.toList
        keyword.toUTF8.toList) = true
      ↔ ∃ word ∈ words, HasWord word message := by
  rw [List.any_eq_true]
  constructor
  · rintro ⟨word, hmem, hcontains⟩
    exact ⟨word, hmem, (contains_message_iff (hwords hmem) message).mp hcontains⟩
  · rintro ⟨word, hmem, hword⟩
    exact ⟨word, hmem, (contains_message_iff (hwords hmem) message).mpr hword⟩

/-- What the scan tells. -/
theorem detectLogLevelFast_cases (message : String) :
    (detectLogLevelFast message = "error" ∧ ∃ word ∈ errorWords, HasWord word message)
      ∨ (detectLogLevelFast message = "warn" ∧ (¬ ∃ word ∈ errorWords, HasWord word message)
        ∧ ∃ word ∈ warnWords, HasWord word message)
      ∨ (detectLogLevelFast message = "info" ∧ (¬ ∃ word ∈ errorWords, HasWord word message)
        ∧ ¬ ∃ word ∈ warnWords, HasWord word message) := by
  rw [detectLogLevelFast]
  rw [← any_contains_iff (List.subset_append_left errorWords warnWords) message,
    ← any_contains_iff (List.subset_append_right errorWords warnWords) message]
  split
  · next herror => exact Or.inl ⟨rfl, herror⟩
  · next herror =>
      split
      · next hwarn => exact Or.inr (Or.inl ⟨rfl, herror, hwarn⟩)
      · next hwarn => exact Or.inr (Or.inr ⟨rfl, herror, hwarn⟩)

-- ── the patterns ──────────────────────────────────────────────────────────────

def levelWords : List String :=
  ["error", "fatal", "panic", "warn", "warning", "info", "debug", "trace"]

/-- `(error|fatal|panic|warn(?:ing)?|info|debug|trace)` without regard to case: no other
    character folds to a letter of these words. -/
def levelGroup : Language Char := {w | w.map Char.toLower ∈ levelWords.map String.toList}

/-- What a match leaves of the text. -/
def anything : Language Char := (one fun _ => true)∗

/-- `^\s*\[`. -/
def bracketBefore : Language Char := (one isWhitespace)∗ * one (· == '[')

/-- `\](?:\s|$)`. -/
def bracketAfter : Language Char := one (· == ']') * (1 + one isWhitespace * anything)

/-- `\d{4}-\d{2}-\d{2}T\S+\s+`. -/
def stamp (digit : Char → Bool) : Language Char :=
  one digit ^ 4 * one (· == '-') * one digit ^ 2 * one (· == '-') * one digit ^ 2 * one (· == 'T')
    * (one (fun c => !isWhitespace c) * (one (fun c => !isWhitespace c))∗)
    * ((one isWhitespace)∗ * one isWhitespace)

/-- `^\s*(?:\d{4}-\d{2}-\d{2}T\S+\s+)?`. -/
def leadingBefore (digit : Char → Bool) : Language Char := (one isWhitespace)∗ * (1 + stamp digit)

/-- `\b(?::|\s|$)`; the level ends in a letter, so what follows it makes the boundary. -/
def leadingAfter : Language Char := 1 + (one (· == ':') + one isWhitespace) * anything

/-- The first group of a match stands where the pattern puts it. -/
def Found (before group after : Language Char) (text level : String) : Prop :=
  ∃ front ∈ before, ∃ back ∈ after, level.toList ∈ group
    ∧ text.toList = front ++ (level.toList ++ back)

/-- What is used of the `regex` crate; `digit` is its `\d`. -/
structure LevelPatterns (captures : String → String → Option String) (digit : Char → Bool) :
    Prop where
  bracket : ∀ text level, captures bracketLevelRe text = some level →
    Found bracketBefore levelGroup bracketAfter text level
  leading : ∀ text level, captures prefixLevelRe text = some level →
    Found (leadingBefore digit) levelGroup leadingAfter text level

theorem not_wordCharacter_space {c : Char} (h : isWhitespace c = true) :
    wordCharacter c = false := by
  refine not_wordCharacter ?_
  simp only [isWhitespace, Bool.or_eq_true, Bool.and_eq_true, decide_eq_true_eq, beq_iff_eq] at h
  omega

theorem getLast_mul_one {L : Language Char} {p : Char → Bool}
    (hp : ∀ c, p c = true → wordCharacter c = false) {w : List Char} (h : w ∈ L * one p) :
    w.getLast?.any wordCharacter = false := by
  obtain ⟨front, -, -, ⟨c, hc, rfl⟩, rfl⟩ := Language.mem_mul.mp h
  rw [List.getLast?_concat]
  exact hp c hc

theorem getLast_spaces {w : List Char} (h : w ∈ (one isWhitespace)∗) :
    w.getLast?.any wordCharacter = false := by
  rcases List.eq_nil_or_concat w with rfl | ⟨init, c, rfl⟩
  · rfl
  · rw [List.concat_eq_append, List.getLast?_concat]
    exact not_wordCharacter_space (mem_many.mp h c (by simp))

theorem getLast_leadingBefore {digit : Char → Bool} {w : List Char}
    (h : w ∈ leadingBefore digit) : w.getLast?.any wordCharacter = false := by
  rw [leadingBefore, mul_add, mul_one] at h
  rcases h with h | h
  · exact getLast_spaces h
  · rw [stamp, ← mul_assoc, ← mul_assoc] at h
    exact getLast_mul_one (fun c => not_wordCharacter_space) h

theorem head_one_mul {L : Language Char} {p : Char → Bool}
    (hp : ∀ c, p c = true → wordCharacter c = false) {w : List Char} (h : w ∈ one p * L) :
    w.head?.any wordCharacter = false := by
  obtain ⟨-, ⟨c, hc, rfl⟩, back, -, rfl⟩ := Language.mem_mul.mp h
  exact hp c hc

theorem head_leadingAfter {w : List Char} (h : w ∈ leadingAfter) :
    w.head?.any wordCharacter = false := by
  rw [leadingAfter, add_mul] at h
  rcases h with h | h | h
  · rw [Set.mem_singleton_iff.mp h]
    rfl
  · exact head_one_mul (fun c hc => by rw [beq_iff_eq.mp hc]; rfl) h
  · exact head_one_mul (fun c => not_wordCharacter_space) h

/-- A level that a pattern finds is a word of the message. -/
theorem Found.hasWord {before group after : Language Char} {message level : String}
    (hbefore : ∀ w ∈ before, w.getLast?.any wordCharacter = false)
    (hafter : ∀ w ∈ after, w.head?.any wordCharacter = false)
    (h : Found before group after message level) : HasWord (toAsciiLowercase level) message := by
  obtain ⟨front, hfront, back, hback, -, hmessage⟩ := h
  refine ⟨front, level.toList, back, hmessage, ?_, hbefore front hfront, hafter back hback⟩
  rw [toAsciiLowercase, String.toList_ofList]

theorem mem_of_any_eqIgnoreAsciiCase {words : List String}
    (hlower : ∀ word ∈ words, toAsciiLowercase word = word) {level : String}
    (h : words.any (eqIgnoreAsciiCase level) = true) : toAsciiLowercase level ∈ words := by
  obtain ⟨word, hmem, heq⟩ := List.any_eq_true.mp h
  rw [eqIgnoreAsciiCase, beq_iff_eq, hlower word hmem] at heq
  rwa [heq]

/-- The level that a pattern stands for is among the words of that level. -/
theorem normalize_words {level : String} :
    (normalizePlainTextLevel level = some "error" → toAsciiLowercase level ∈ errorWords)
      ∧ (normalizePlainTextLevel level = some "warn" → toAsciiLowercase level ∈ warnWords) := by
  rw [normalizePlainTextLevel]
  split
  · next herror =>
      have hmem := mem_of_any_eqIgnoreAsciiCase (by decide +kernel) herror
      refine ⟨fun _ => ?_, fun h => absurd h (by decide)⟩
      exact List.mem_append_left ["exception", "traceback"] hmem
  · split
    · next hwarn =>
        have hmem := mem_of_any_eqIgnoreAsciiCase (by decide +kernel) hwarn
        exact ⟨fun h => absurd h (by decide), fun _ => hmem⟩
    · -- info, debug, trace or none
      refine ⟨fun h => ?_, fun h => ?_⟩ <;> repeat' split at h
      all_goals exact absurd h (by decide)

section Detect

variable {tools : LineTools} {digit : Char → Bool} (hpatterns : LevelPatterns tools.captures digit)

include hpatterns

theorem captured_hasWord {level message : String}
    (h : tools.captures bracketLevelRe message = some level
      ∨ tools.captures prefixLevelRe message = some level) :
    HasWord (toAsciiLowercase level) message := by
  rcases h with h | h
  · refine (hpatterns.bracket message level h).hasWord (fun w hw => ?_) (fun w hw => ?_)
    · exact getLast_mul_one (fun c hc => by rw [beq_iff_eq.mp hc]; rfl) hw
    · exact head_one_mul (fun c hc => by rw [beq_iff_eq.mp hc]; rfl) hw
  · exact (hpatterns.leading message level h).hasWord (fun w => getLast_leadingBefore)
      (fun w => head_leadingAfter)

/-- The patterns tell an error or a warning only where a word of the message does. -/
theorem regex_hasWord (message : String) :
    (detectLogLevelRegex tools message = some "error" →
        ∃ word ∈ errorWords, HasWord word message)
      ∧ (detectLogLevelRegex tools message = some "warn" →
        ∃ word ∈ warnWords, HasWord word message) := by
  rw [detectLogLevelRegex]
  split
  · next level hcaptured =>
      have hword := captured_hasWord hpatterns (Or.inl hcaptured)
      exact ⟨fun h => ⟨_, normalize_words.1 h, hword⟩, fun h => ⟨_, normalize_words.2 h, hword⟩⟩
  · split
    · next level hcaptured =>
        have hword := captured_hasWord hpatterns (Or.inr hcaptured)
        exact ⟨fun h => ⟨_, normalize_words.1 h, hword⟩,
          fun h => ⟨_, normalize_words.2 h, hword⟩⟩
    · exact ⟨fun h => (by cases h), fun h => (by cases h)⟩

end Detect

def debugLine : String := "[DEBUG] no terrors"

/-- The group of the one message below. -/
def debugTools : LineTools :=
  { noteTools with
    captures := fun pattern text =>
      if pattern = bracketLevelRe ∧ text = debugLine then some "DEBUG" else none }

theorem debugTools_captures {pattern text level : String}
    (h : debugTools.captures pattern text = some level) :
    (pattern = bracketLevelRe ∧ text = debugLine) ∧ some "DEBUG" = some level :=
  Option.ite_none_right_eq_some.mp h

theorem debugPatterns : LevelPatterns debugTools.captures Char.isDigit where
  bracket := fun text level h => by
    obtain ⟨⟨-, rfl⟩, hlevel⟩ := debugTools_captures h
    obtain rfl := Option.some.inj hlevel
    have hopen : ['['] ∈ bracketBefore :=
      Language.mem_mul.mpr ⟨[], Language.nil_mem_kstar _, ['['], ⟨'[', rfl, rfl⟩, rfl⟩
    have hclose : "] no terrors".toList ∈ bracketAfter :=
      cons_mem_one_mul.mpr ⟨rfl, Or.inr (cons_mem_one_mul.mpr ⟨rfl, mem_many.mpr fun _ _ => rfl⟩)⟩
    have hgroup : "DEBUG".toList ∈ levelGroup := by
      show "DEBUG".toList.map Char.toLower ∈ levelWords.map String.toList
      decide
    exact ⟨_, hopen, _, hclose, hgroup, by decide⟩
  leading := fun text level h =>
    absurd (debugTools_captures h).1.1 (by decide)

end DevstackLevelDetection
