import Devstack.Model
import Mathlib.Data.List.DropRight

/-! # Log formatting — ANSI stripping and the record encoder

    `src/logfmt.rs`.  The ANSI expression has no backtracking: after the escape
    character its alternatives differ in one character, and each repeated class
    excludes what may follow it, so `replace_all` is a scan.

    `serde_json` is third-party code and stays a parameter; its maps are
    `BTreeMap`s, so an object prints its keys in order. -/

namespace DevstackLogFmt

open DevstackModel

-- ── ANSI_RE ───────────────────────────────────────────────────────────────────

def esc : Char := '\x1b'

def bel : Char := '\x07'

def isCsiParam (c : Char) : Bool := c.isDigit || c == ';' || c == '?'

/-- `\[[0-9;?]*[A-Za-z]` after the bracket. -/
def csiRest (cs : List Char) : Option (List Char) :=
  match cs.dropWhile isCsiParam with
  | c :: rest => if c.isAlpha then some rest else none
  | [] => none

/-- `\][^\x07\x1b]*(?:\x07|\x1b\\)` after the bracket. -/
def oscRest (cs : List Char) : Option (List Char) :=
  match cs.dropWhile (fun c => c != bel && c != esc) with
  | [] => none
  | c :: rest =>
      if c = bel then some rest
      else
        match rest with
        | '\\' :: rest' => some rest'
        | _ => none

/-- What follows one escape sequence, given what follows its escape character. -/
def ansiRest : List Char → Option (List Char)
  | '[' :: cs => csiRest cs
  | ']' :: cs => oscRest cs
  | '(' :: c :: cs => if c = 'A' ∨ c = 'B' then some cs else none
  | c :: cs => if c ∈ ['=', '>', 'N', 'O', 'M', 'D', 'E', 'H', 'c', 'Z', '7', '8'] then some cs
      else none
  | [] => none

/-- `ANSI_RE.replace_all(input, "")`; the fuel is the length of the input. -/
def stripLoop : Nat → List Char → List Char
  | 0, cs => cs
  | _ + 1, [] => []
  | fuel + 1, c :: cs =>
      if c = esc then
        match ansiRest cs with
        | some rest => stripLoop fuel rest
        | none => c :: stripLoop fuel cs
      else c :: stripLoop fuel cs

def stripAnsi (input : List Char) : List Char := stripLoop input.length input

def containsAnsi (input : List Char) : Bool := input.contains esc

def stripAnsiIfNeeded (input : List Char) : List Char :=
  if containsAnsi input then stripAnsi input else input

theorem csiRest_length {cs rest : List Char} (h : csiRest cs = some rest) :
    rest.length < cs.length := by
  have hle := (List.dropWhile_suffix isCsiParam (l := cs)).length_le
  rw [csiRest] at h
  split at h
  · rename_i c tl heq
    rw [heq, List.length_cons] at hle
    split at h
    · rw [← Option.some.inj h]; omega
    · exact nomatch h
  · exact nomatch h

theorem oscRest_length {cs rest : List Char} (h : oscRest cs = some rest) :
    rest.length < cs.length := by
  have hle := (List.dropWhile_suffix (fun c => c != bel && c != esc) (l := cs)).length_le
  rw [oscRest] at h
  split at h
  · exact nomatch h
  · rename_i c tl heq
    rw [heq, List.length_cons] at hle
    split at h
    · rw [← Option.some.inj h]; omega
    · split at h
      · rw [List.length_cons] at hle
        rw [← Option.some.inj h]; omega
      · exact nomatch h

/-- An escape sequence takes at least one character after its escape. -/
theorem ansiRest_length {cs rest : List Char} (h : ansiRest cs = some rest) :
    rest.length < cs.length := by
  rw [ansiRest.eq_def] at h
  split at h
  · have := csiRest_length h
    rw [List.length_cons]; omega
  · have := oscRest_length h
    rw [List.length_cons]; omega
  · split at h
    · rw [← Option.some.inj h, List.length_cons, List.length_cons]; omega
    · exact nomatch h
  · split at h
    · rw [← Option.some.inj h, List.length_cons]; omega
    · exact nomatch h
  · exact nomatch h

/-- The length of the input is fuel enough: more fuel strips the same. -/
theorem stripLoop_fuel : ∀ (fuel : Nat) (cs : List Char), cs.length ≤ fuel →
    stripLoop fuel cs = stripAnsi cs := by
  have hmore : ∀ (fuel fuel' : Nat) (cs : List Char), cs.length ≤ fuel → cs.length ≤ fuel' →
      stripLoop fuel cs = stripLoop fuel' cs := by
    intro fuel
    induction fuel with
    | zero =>
        intro fuel' cs h _
        have hnil : cs = [] := List.length_eq_zero_iff.mp (by omega)
        subst hnil
        cases fuel' <;> rfl
    | succ fuel ih =>
        intro fuel' cs h h'
        cases cs with
        | nil => cases fuel' <;> rfl
        | cons c cs =>
            cases fuel' with
            | zero => rw [List.length_cons] at h'; omega
            | succ fuel' =>
                rw [List.length_cons] at h h'
                simp only [stripLoop]
                have hskip := ih fuel' cs (by omega) (by omega)
                by_cases hc : c = esc
                · rw [if_pos hc, if_pos hc]
                  cases hrest : ansiRest cs with
                  | none => simp only [hskip]
                  | some rest =>
                      have hlt := ansiRest_length hrest
                      exact ih fuel' rest (by omega) (by omega)
                · rw [if_neg hc, if_neg hc, hskip]
  intro fuel cs h
  exact hmore fuel cs.length cs h (Nat.le_refl _)

theorem stripAnsi_cons (c : Char) (cs : List Char) :
    stripAnsi (c :: cs)
      = if c = esc then
          match ansiRest cs with
          | some rest => stripAnsi rest
          | none => c :: stripAnsi cs
        else c :: stripAnsi cs := by
  show stripLoop (cs.length + 1) (c :: cs) = _
  rw [stripLoop]
  by_cases hc : c = esc
  · rw [if_pos hc, if_pos hc]
    cases hrest : ansiRest cs with
    | none => rfl
    | some rest => exact stripLoop_fuel cs.length rest (Nat.le_of_lt (ansiRest_length hrest))
  · rw [if_neg hc, if_neg hc]
    rfl

theorem stripAnsi_plain {cs : List Char} (h : esc ∉ cs) : stripAnsi cs = cs := by
  induction cs with
  | nil => rfl
  | cons c cs ih =>
      rw [List.mem_cons, not_or] at h
      rw [stripAnsi_cons, if_neg (Ne.symm h.1), ih h.2]

/-- The test for an escape character only saves work. -/
theorem stripAnsiIfNeeded_eq (cs : List Char) : stripAnsiIfNeeded cs = stripAnsi cs := by
  rw [stripAnsiIfNeeded]
  by_cases h : containsAnsi cs = true
  · rw [if_pos h]
  · rw [if_neg h]
    refine (stripAnsi_plain ?_).symm
    simpa [containsAnsi] using h

/-- Text without an escape character is left as it is. -/
theorem stripAnsiIfNeeded_plain {cs : List Char} (h : esc ∉ cs) :
    stripAnsiIfNeeded cs = cs := by
  have hfalse : containsAnsi cs = false := by
    rw [containsAnsi, List.contains_eq_mem]; exact decide_eq_false h
  rw [stripAnsiIfNeeded, hfalse, if_neg Bool.false_ne_true]

-- ── encode_log_line ───────────────────────────────────────────────────────────

def isLineEnd (c : Char) : Bool := c == '\r' || c == '\n'

/-- `trim_end_matches(['\r', '\n'])`. -/
def trimLineEnd (cs : List Char) : List Char := cs.rdropWhile isLineEnd

section LineEnd

variable {ends : List Char}

/-- What the scan drops ends before the line ends, or takes none of them. -/
theorem dropWhile_append_lineEnds {p : Char → Bool} (hp : ∀ c ∈ ends, p c = false)
    (cs : List Char) : (cs ++ ends).dropWhile p = cs.dropWhile p ++ ends := by
  rw [List.dropWhile_append]
  cases hdrop : cs.dropWhile p with
  | cons c rest => rfl
  | nil =>
      cases ends with
      | nil => rfl
      | cons e ends =>
          have he : p e = false := hp e List.mem_cons_self
          simp [he]

variable (hends : ∀ c ∈ ends, isLineEnd c = true)

include hends

theorem lineEnd_cases {c : Char} (hc : c ∈ ends) : c = '\r' ∨ c = '\n' := by
  simpa [isLineEnd] using hends c hc

theorem trimLineEnd_append (cs : List Char) : trimLineEnd (cs ++ ends) = trimLineEnd cs := by
  rw [trimLineEnd, trimLineEnd, List.rdropWhile, List.rdropWhile, List.reverse_append,
    List.dropWhile_append_of_pos (fun c hc => hends c (List.mem_reverse.mp hc))]

theorem csiRest_append_lineEnds (cs : List Char) :
    csiRest (cs ++ ends) = (csiRest cs).map (· ++ ends) := by
  have hparam : ∀ c ∈ ends, isCsiParam c = false := by
    intro c hc
    rcases lineEnd_cases hends hc with rfl | rfl <;> decide
  rw [csiRest, csiRest, dropWhile_append_lineEnds hparam]
  cases hdrop : cs.dropWhile isCsiParam with
  | cons c rest =>
      rw [List.cons_append]
      by_cases hc : c.isAlpha = true
      · simp [hc]
      · simp [hc]
  | nil =>
      cases hcons : ends with
      | nil => rfl
      | cons e tail =>
          have he : e.isAlpha = false := by
            rcases lineEnd_cases hends (hcons ▸ List.mem_cons_self) with rfl | rfl <;> decide
          simp [he]

theorem oscRest_append_lineEnds (cs : List Char) :
    oscRest (cs ++ ends) = (oscRest cs).map (· ++ ends) := by
  rw [oscRest, oscRest, List.dropWhile_append]
  cases hdrop : cs.dropWhile (fun c => c != bel && c != esc) with
  | nil =>
      -- without a terminator in the text there is none after it
      have hnone : ends.dropWhile (fun c => c != bel && c != esc) = [] := by
        rw [List.dropWhile_eq_nil_iff]
        intro c hc
        rcases lineEnd_cases hends hc with rfl | rfl <;> decide
      simp [hnone]
  | cons c rest =>
      show (if c = bel then some (rest ++ ends) else
        match rest ++ ends with
        | '\\' :: rest' => some rest'
        | _ => none) = _
      by_cases hc : c = bel
      · simp [hc]
      · rw [if_neg hc]
        cases rest with
        | cons d rest =>
            by_cases hd : d = '\\'
            · subst hd
              simp [hc]
            · simp [hc, hd]
        | nil =>
            cases hcons : ends with
            | nil => simp [hc]
            | cons e tail =>
                rcases lineEnd_cases hends (hcons ▸ List.mem_cons_self) with rfl | rfl <;> simp [hc]

/-- Line ends finish no escape sequence. -/
theorem ansiRest_append_lineEnds (cs : List Char) :
    ansiRest (cs ++ ends) = (ansiRest cs).map (· ++ ends) := by
  have hnone : ansiRest ends = none := by
    cases hcons : ends with
    | nil => rfl
    | cons e tail =>
        rcases lineEnd_cases hends (hcons ▸ List.mem_cons_self) with rfl | rfl <;> simp [ansiRest]
  cases cs with
  | nil => exact hnone
  | cons c cs =>
      by_cases hcsi : c = '['
      · subst hcsi
        exact csiRest_append_lineEnds hends cs
      · by_cases hosc : c = ']'
        · subst hosc
          exact oscRest_append_lineEnds hends cs
        · by_cases hset : c = '('
          · subst hset
            cases cs with
            | cons d cs => by_cases hd : d = 'A' ∨ d = 'B' <;> simp [ansiRest, hd]
            | nil =>
                cases hcons : ends with
                | nil => rfl
                | cons e tail =>
                    rcases lineEnd_cases hends (hcons ▸ List.mem_cons_self) with rfl | rfl <;>
                      simp [ansiRest]
          · have hother : ∀ cs, ansiRest (c :: cs)
                = if c ∈ ['=', '>', 'N', 'O', 'M', 'D', 'E', 'H', 'c', 'Z', '7', '8'] then some cs
                  else none := by
              intro cs
              rw [ansiRest]
              · exact hcsi
              · exact hosc
              · intro d rest heq
                exact absurd heq hset
            rw [List.cons_append, hother, hother]
            split <;> rfl

/-- Stripping leaves the line ends at the end alone. -/
theorem stripAnsi_append_lineEnds (cs : List Char) :
    stripAnsi (cs ++ ends) = stripAnsi cs ++ ends := by
  induction hn : cs.length using Nat.strong_induction_on generalizing cs with
  | _ n ih =>
      cases cs with
      | nil =>
          refine stripAnsi_plain (fun hmem => ?_)
          rcases lineEnd_cases hends hmem with h | h <;> exact absurd h (by decide)
      | cons c cs =>
          rw [List.length_cons] at hn
          have hskip := ih cs.length (by omega) cs rfl
          rw [List.cons_append, stripAnsi_cons, stripAnsi_cons, ansiRest_append_lineEnds hends]
          by_cases hc : c = esc
          · rw [if_pos hc, if_pos hc]
            cases hrest : ansiRest cs with
            | none => exact congrArg (c :: ·) hskip
            | some rest =>
                have hlt := ansiRest_length hrest
                exact ih rest.length (by omega) rest rfl
          · rw [if_neg hc, if_neg hc, hskip, List.cons_append]

/-- So whether they are cut off before or after makes no difference. -/
theorem trimLineEnd_strip_append (cs : List Char) :
    trimLineEnd (stripAnsiIfNeeded (cs ++ ends)) = trimLineEnd (stripAnsiIfNeeded cs) := by
  rw [stripAnsiIfNeeded_eq, stripAnsiIfNeeded_eq, stripAnsi_append_lineEnds hends]
  exact trimLineEnd_append hends _

end LineEnd

/-- `char::is_whitespace` (the Unicode property `White_Space`). -/
def isWhitespace (c : Char) : Bool :=
  let n := c.toNat
  (9 ≤ n && n ≤ 13) || n == 32 || n == 0x85 || n == 0xA0 || n == 0x1680
    || (0x2000 ≤ n && n ≤ 0x200A) || n == 0x2028 || n == 0x2029 || n == 0x202F
    || n == 0x205F || n == 0x3000

/-- `content.trim_start().starts_with('{')`. -/
def startsWithBrace (content : List Char) : Bool :=
  (content.dropWhile isWhitespace).head? == some '{'

/-- What is used of the `serde_json` crate. -/
structure SerdeJson where
  Value : Type
  /-- `Value::String`. -/
  string : String → Value
  /-- `from_str`, when it gives `Ok(Value::Object(map))`. -/
  parseObject : String → Option (BTreeMap Value)
  /-- `to_string(&Value::Object(map))`. -/
  printObject : BTreeMap Value → Except String String

/-- `encode_log_line`. -/
def encodeLogLine (json : SerdeJson) (stream content timestamp : String) : String :=
  let content := trimLineEnd content.toList
  let text := String.ofList content
  let wrapped : BTreeMap json.Value := (∅ : BTreeMap json.Value).insert "msg" (json.string text)
  let payload :=
    match json.parseObject text with
    | some map => if startsWithBrace content then map else wrapped
    | none => wrapped
  let payload := payload.insert "time" (json.string timestamp)
  let payload := payload.insert "stream" (json.string stream)
  match json.printObject payload with
  | .ok line => line
  | .error _ =>
      let quoted := content.flatMap (fun c => if c = '"' then ['\\', '"'] else [c])
      "\x7b\"time\":\"" ++ timestamp ++ "\",\"stream\":\"" ++ stream ++ "\",\"msg\":\""
        ++ String.ofList quoted ++ "\"\x7d"

end DevstackLogFmt
