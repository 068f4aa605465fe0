import Mathlib.Data.List.DropRight
import Devstack.Lib.AsciiWords
import Devstack.Lib.Splitting

/-! # Search parser — the search string of the dashboard

    `parseSearch` and `serializeSearch` of `src/lib/search-parser.ts` in the dashboard.
    A search is cut into pieces at the blanks that stand outside of quotes; a piece is
    a filter on a field, or free text.

    * `parseToken_format`: what a printed filter reads as;
    * `run_format`: how far it is read. -/

namespace DevstackSearchParser

open DevstackSplitting
open DevstackAsciiWords (isAlphanum_lt)

/-- A string, as its characters. -/
abbrev Text := List Char

-- ── the language's own ────────────────────────────────────────────────────────

/-- The white space of `trim` and of `\s`. -/
def isSpace (c : Char) : Bool :=
  ['\t', '\n', '\x0b', '\x0c', '\r', ' ', '\u00a0', '\u1680', '\u2028', '\u2029', '\u202f',
    '\u205f', '\u3000', '\ufeff'].contains c || decide ('\u2000' ≤ c ∧ c ≤ '\u200a')

def trimStart (cs : Text) : Text := cs.dropWhile isSpace

def trimEnd (cs : Text) : Text := cs.rdropWhile isSpace

/-- `String.prototype.trim`. -/
def trim (cs : Text) : Text := trimEnd (trimStart cs)

/-- `toLowerCase`, as far as letters become letters of a field name: those of ASCII, and
    the Kelvin sign. -/
def toLowerCase (cs : Text) : Text := cs.map (fun c => if c = '\u212a' then 'k' else c.toLower)

/-- `replace` of every occurrence of a character. -/
def replaceAll (c : Char) (text : Text) (cs : Text) : Text :=
  cs.flatMap (fun d => if d = c then text else [d])

-- ── search-parser.ts ──────────────────────────────────────────────────────────

/-- What a token asks for. -/
structure Filter where
  field : Text
  value : Text
  negated : Bool
  deriving DecidableEq

/-- A filter, with the piece it was read from. -/
structure SearchToken extends Filter where
  raw : Text
  deriving DecidableEq

/-- The filters of a search, and what else was typed. -/
structure ParsedSearch where
  tokens : List SearchToken
  freeText : Text
  deriving DecidableEq

/-- The first character of a field. -/
def isFieldStart (c : Char) : Bool := c.isAlpha || c == '_'

/-- The characters behind it. -/
def isFieldChar (c : Char) : Bool := c.isAlphanum || c == '_' || c == '.' || c == '-'

/-- `FIELD_RE`. -/
def isField : Text → Bool
  | [] => false
  | c :: cs => isFieldStart c && cs.all isFieldChar

/-- What the loop cuts at, which is less than what `trim` takes away. -/
def isWhitespace (c : Char) : Bool := c == ' ' || c == '\n' || c == '\t'

/-- The loop of `parseQuotedValue`, after the first quote. -/
def quotedRest : Bool → Text → Option Text
  | _, [] => none
  | true, c :: cs => (quotedRest false cs).map (c :: ·)
  | false, c :: cs =>
      if c = '\\' then quotedRest true cs
      else if c = '"' then if cs = [] then some [] else none
      else (quotedRest false cs).map (c :: ·)

/-- A value in quotes, up to the quote that ends the text; else none. -/
def parseQuotedValue : Text → Option Text
  | '"' :: rest => quotedRest false rest
  | _ => none

/-- The value of a token; an empty one is no value. -/
def normalizeTokenValue (rawValue : Text) : Option Text :=
  if ['"'].isPrefixOf rawValue then parseQuotedValue rawValue
  else if rawValue = [] then none
  else some rawValue

/-- A filter, unless the field is no field, a path follows, or the value is none. -/
def parseToken (raw : Text) : Option SearchToken :=
  let negated := ['-'].isPrefixOf raw
  let body := if negated then raw.tail else raw
  match body.dropWhile (· ≠ ':') with
  | [] => none
  | _ :: rawValue =>
      let field := toLowerCase (body.takeWhile (· ≠ ':'))
      if ¬ isField field then none
      else if ['/', '/'].isPrefixOf rawValue then none
      else (normalizeTokenValue rawValue).map
        (fun value => ⟨{ field := field, value := value, negated := negated }, raw⟩)

/-- Free text, out of its quotes if it stands in them. -/
def decodeFreeTextSegment (raw : Text) : Text := (parseQuotedValue raw).getD raw

/-- `/[\s"]/` on a value, or none at all. -/
def needsQuotes (value : Text) : Bool := value.isEmpty || value.any (fun c => isSpace c || c == '"')

/-- Backslashes first, then quotes. -/
def escape (value : Text) : Text :=
  replaceAll '"' ['\\', '"'] (replaceAll '\\' ['\\', '\\'] value)

/-- A value, in quotes where it needs them. -/
def serializeValue (value : Text) : Text :=
  if needsQuotes value then '"' :: (escape value ++ ['"']) else value

/-- A filter as it is typed. -/
def formatToken (t : Filter) : Text :=
  (if t.negated then ['-'] else []) ++ (t.field ++ ':' :: serializeValue t.value)

/-- The filters, then the free text. -/
def buildSearch (tokens : List Filter) (freeText : Text) : Text :=
  joinBy ' ' (tokens.map formatToken ++ if trim freeText = [] then [] else [trim freeText])

/-- Whether the loop of `parseSearch` stands in quotes, and behind a backslash. -/
structure Reading where
  inQuotes : Bool
  escaped : Bool
  deriving DecidableEq

/-- A turn of the loop that does not end the piece. -/
def Reading.next (r : Reading) (c : Char) : Reading :=
  if r.escaped then { r with escaped := false }
  else if c = '\\' then { r with escaped := true }
  else if c = '"' then { r with inQuotes := !r.inQuotes }
  else r

/-- The two loops of `parseSearch` that cut the input: they skip white space, and end a
    piece at white space outside of quotes. -/
def cutter : Splitter Char Reading where
  start := ⟨false, false⟩
  next := Reading.next
  blank := isWhitespace

/-- What becomes of a piece: a token, or a segment of free text. -/
def readPiece (raw : Text) : SearchToken ⊕ Text :=
  match parseToken raw with
  | some token => .inl token
  | none => .inr (decodeFreeTextSegment raw)

/-- The segments of free text. -/
def segments (input : Text) : List Text :=
  ((pieces cutter input).map readPiece).filterMap Sum.getRight?

/-- The pieces of the input, read one by one. -/
def parseSearch (input : Text) : ParsedSearch where
  tokens := ((pieces cutter input).map readPiece).filterMap Sum.getLeft?
  freeText := trim (joinBy ' ' (segments input))

/-- What is shown for a parsed search. -/
def serializeSearch (parsed : ParsedSearch) : Text :=
  buildSearch (parsed.tokens.map (·.toFilter)) parsed.freeText

-- ── white space ───────────────────────────────────────────────────────────────

/-- Every cut is at white space. -/
theorem isSpace_of_isWhitespace {c : Char} (h : isWhitespace c = true) : isSpace c = true := by
  rw [isWhitespace, Bool.or_eq_true, Bool.or_eq_true, beq_iff_eq, beq_iff_eq, beq_iff_eq] at h
  rcases h with (rfl | rfl) | rfl <;> decide

theorem isWhitespace_of_not_space {c : Char} (h : isSpace c = false) : isWhitespace c = false := by
  rw [Bool.eq_false_iff]
  exact fun hc => Bool.eq_false_iff.mp h (isSpace_of_isWhitespace hc)

/-- What stands behind is trimmed first; only when nothing is left of it, what stands before. -/
theorem trimEnd_append (x y : Text) :
    trimEnd (x ++ y) = if trimEnd y = [] then trimEnd x else x ++ trimEnd y := by
  induction y using List.reverseRecOn with
  | nil => simp [trimEnd, List.rdropWhile_nil]
  | append_singleton y c ih =>
      rw [trimEnd, trimEnd, ← List.append_assoc, List.rdropWhile_concat, List.rdropWhile_concat]
      by_cases hc : isSpace c = true
      · rw [if_pos hc, if_pos hc]
        exact ih
      · rw [if_neg hc, if_neg hc, if_neg (by simp), List.append_assoc]

theorem trimEnd_idem (x : Text) : trimEnd (trimEnd x) = trimEnd x := List.rdropWhile_idempotent ..

theorem length_trimEnd_le (x : Text) : (trimEnd x).length ≤ x.length :=
  (List.rdropWhile_prefix isSpace x).length_le

theorem length_trim_le (x : Text) : (trim x).length ≤ x.length :=
  (length_trimEnd_le _).trans (List.dropWhile_suffix _).length_le

/-- A first character that is no white space stays. -/
theorem trimEnd_cons {c : Char} (hc : isSpace c = false) (cs : Text) :
    trimEnd (c :: cs) = c :: trimEnd cs := by
  have hone : trimEnd [c] = [c] := by
    rw [trimEnd, List.rdropWhile_singleton, if_neg (by simp [hc])]
  rw [← List.singleton_append, trimEnd_append, hone]
  split
  · next h => rw [h]
  · rfl

theorem trim_cons {c : Char} (hc : isSpace c = false) (cs : Text) :
    trim (c :: cs) = c :: trimEnd cs := by
  rw [trim, trimStart, List.dropWhile_cons_of_neg (by simp [hc]), trimEnd_cons hc]

/-- What is trimmed begins with no white space and ends with none. -/
theorem trimmed_cases (x : Text) :
    trim x = [] ∨ ∃ c cs, trim x = c :: cs ∧ isSpace c = false ∧ trimEnd cs = cs := by
  induction x with
  | nil => exact Or.inl rfl
  | cons c x ih =>
      cases hc : isSpace c with
      | true =>
          rw [trim, trimStart, List.dropWhile_cons_of_pos hc]
          exact ih
      | false => exact Or.inr ⟨c, trimEnd x, trim_cons hc x, hc, trimEnd_idem x⟩

/-- Trimming twice is trimming once. -/
theorem trim_idem (x : Text) : trim (trim x) = trim x := by
  rcases trimmed_cases x with h | ⟨c, cs, h, hc, hcs⟩
  · rw [h]
    rfl
  · rw [h, trim_cons hc, hcs]

-- ── quotes ────────────────────────────────────────────────────────────────────

@[simp] theorem escape_nil : escape [] = [] := rfl

/-- The two replacements are one, character by character. -/
theorem escape_cons (c : Char) (v : Text) :
    escape (c :: v)
      = (if c = '\\' then ['\\', '\\'] else if c = '"' then ['\\', '"'] else [c]) ++ escape v := by
  rw [escape, replaceAll, replaceAll, List.flatMap_cons, List.flatMap_append]
  refine congrArg (· ++ escape v) ?_
  split
  · rfl
  · rw [List.flatMap_singleton]

/-- What is escaped reads as it was. -/
theorem quotedRest_escape (v : Text) : quotedRest false (escape v ++ ['"']) = some v := by
  induction v with
  | nil => rfl
  | cons c v ih =>
      rw [escape_cons]
      by_cases hslash : c = '\\'
      · rw [if_pos hslash, hslash]
        show Option.map _ (quotedRest false (escape v ++ ['"'])) = _
        rw [ih]
        rfl
      · rw [if_neg hslash]
        by_cases hquote : c = '"'
        · rw [if_pos hquote, hquote]
          show Option.map _ (quotedRest false (escape v ++ ['"'])) = _
          rw [ih]
          rfl
        · rw [if_neg hquote, List.append_assoc, List.singleton_append, quotedRest,
            if_neg hslash, if_neg hquote, ih]
          rfl

/-- A value without a quote before it is taken as it is. -/
theorem normalizeTokenValue_of_not_quoted {v : Text} (hne : v ≠ []) (h : ¬ ['"'] <+: v) :
    normalizeTokenValue v = some v := by
  rw [normalizeTokenValue, if_neg (by simpa using h), if_neg hne]

/-- A value that needs no quotes has no white space and no quote. -/
theorem not_quoted_of_plain {v : Text} (h : needsQuotes v = false) :
    v ≠ [] ∧ (∀ c ∈ v, isSpace c = false ∧ c ≠ '"') := by
  rw [needsQuotes, Bool.or_eq_false_iff, List.any_eq_false] at h
  refine ⟨by simpa using h.1, fun c hc => ?_⟩
  simpa using h.2 c hc

/-- **A VALUE IS READ BACK**, in quotes or not. -/
theorem normalizeTokenValue_serializeValue (v : Text) :
    normalizeTokenValue (serializeValue v) = some v := by
  cases hquotes : needsQuotes v with
  | true =>
      rw [serializeValue, if_pos hquotes]
      exact quotedRest_escape v
  | false =>
      obtain ⟨hne, hplain⟩ := not_quoted_of_plain hquotes
      rw [serializeValue, if_neg (by simp [hquotes])]
      refine normalizeTokenValue_of_not_quoted hne ?_
      rintro ⟨rest, rfl⟩
      exact (hplain '"' (by simp)).2 rfl

/-- What is read in quotes is shorter than what was typed. -/
theorem length_quotedRest {escaped : Bool} {cs d : Text} (h : quotedRest escaped cs = some d) :
    d.length < cs.length := by
  induction cs generalizing escaped d with
  | nil => cases escaped <;> exact nomatch h
  | cons c cs ih =>
      cases escaped with
      | true =>
          obtain ⟨d', hd', rfl⟩ := Option.map_eq_some_iff.mp h
          exact Nat.succ_lt_succ (ih hd')
      | false =>
          rw [quotedRest] at h
          split at h
          · exact Nat.lt_succ_of_lt (ih h)
          · split at h
            · split at h
              · rw [← Option.some.inj h]
                exact Nat.succ_pos _
              · exact nomatch h
            · obtain ⟨d', hd', rfl⟩ := Option.map_eq_some_iff.mp h
              exact Nat.succ_lt_succ (ih hd')

theorem length_parseQuotedValue {raw d : Text} (h : parseQuotedValue raw = some d) :
    d.length < raw.length := by
  unfold parseQuotedValue at h
  split at h
  · exact Nat.lt_succ_of_lt (length_quotedRest h)
  · exact nomatch h

/-- What is in quotes goes on no further than they do. -/
theorem quotedRest_append {escaped : Bool} {cs d s : Text} (h : quotedRest escaped cs = some d)
    (hs : s ≠ []) : quotedRest escaped (cs ++ s) = none := by
  induction cs generalizing escaped d with
  | nil => cases escaped <;> exact nomatch h
  | cons c cs ih =>
      cases escaped with
      | true =>
          obtain ⟨d', hd', -⟩ := Option.map_eq_some_iff.mp h
          show Option.map _ (quotedRest false (cs ++ s)) = none
          rw [ih hd']
          rfl
      | false =>
          rw [quotedRest] at h
          rw [List.cons_append, quotedRest]
          split at h
          · next hslash =>
              rw [if_pos hslash]
              exact ih h
          · next hslash =>
              rw [if_neg hslash]
              split at h
              · next hquote =>
                  split at h
                  · next hend => rw [if_pos hquote, hend, List.nil_append, if_neg hs]
                  · exact nomatch h
              · next hquote =>
                  obtain ⟨d', hd', -⟩ := Option.map_eq_some_iff.mp h
                  rw [if_neg hquote, ih hd']
                  rfl

/-- What is in quotes ends with a quote. -/
theorem ends_of_quotedRest {escaped : Bool} {cs d : Text} (h : quotedRest escaped cs = some d) :
    ∃ init, cs = init ++ ['"'] := by
  induction cs generalizing escaped d with
  | nil => cases escaped <;> exact nomatch h
  | cons c cs ih =>
      have hmore : ∀ {escaped d}, quotedRest escaped cs = some d → ∃ init, c :: cs = init ++ ['"'] := by
        intro escaped d h
        obtain ⟨init, hinit⟩ := ih h
        exact ⟨c :: init, by rw [hinit]; rfl⟩
      cases escaped with
      | true =>
          obtain ⟨d', hd', -⟩ := Option.map_eq_some_iff.mp h
          exact hmore hd'
      | false =>
          rw [quotedRest] at h
          split at h
          · exact hmore h
          · split at h
            · next hquote =>
                split at h
                · next hend => exact ⟨[], by rw [hquote, hend]; rfl⟩
                · exact nomatch h
            · obtain ⟨d', hd', -⟩ := Option.map_eq_some_iff.mp h
              exact hmore hd'

/-- Without a quote before it nothing is decoded. -/
theorem parseQuotedValue_of_not_quoted {raw : Text} (h : ¬ ['"'] <+: raw) :
    parseQuotedValue raw = none := by
  unfold parseQuotedValue
  split
  · exact absurd ⟨_, rfl⟩ h
  · rfl

-- ── fields ────────────────────────────────────────────────────────────────────

/-- A field name as `parseToken` gives it. -/
structure GoodField (field : Text) : Prop where
  isField : isField field = true
  lower : toLowerCase field = field

/-- Such a field is one in lower case too. -/
theorem GoodField.name {field : Text} (h : GoodField field) :
    DevstackSearchParser.isField (toLowerCase field) = true := by
  rw [h.lower]
  exact h.isField

/-- A field is ASCII. -/
theorem toNat_lt_of_isFieldChar {c : Char} (h : isFieldChar c = true) : c.toNat < 128 := by
  simp only [isFieldChar, Bool.or_eq_true, beq_iff_eq] at h
  rcases h with ((halnum | rfl) | rfl) | rfl
  · exact lt_trans (isAlphanum_lt halnum) (by decide)
  · decide
  · decide
  · decide

/-- A field has no character that means something to the parser. -/
theorem isFieldChar_spec {c : Char} (h : isFieldChar c = true) :
    isSpace c = false ∧ c ≠ ':' ∧ c ≠ '"' ∧ c ≠ '\\' := by
  have hascii := toNat_lt_of_isFieldChar h
  rw [← Char.ofNat_toNat c] at h ⊢
  exact (by decide : ∀ n : Fin 128, isFieldChar (Char.ofNat n) = true →
    isSpace (Char.ofNat n) = false ∧ Char.ofNat n ≠ ':' ∧ Char.ofNat n ≠ '"'
      ∧ Char.ofNat n ≠ '\\') ⟨c.toNat, hascii⟩ h

/-- A field does not begin like a negation. -/
theorem isFieldStart_spec {c : Char} (h : isFieldStart c = true) :
    isFieldChar c = true ∧ c ≠ '-' := by
  rw [isFieldStart, Bool.or_eq_true] at h
  constructor
  · rcases h with h | h
    · simp [isFieldChar, Char.isAlphanum, h]
    · simp [isFieldChar, h]
  · rintro rfl
    exact absurd h (by decide)

/-- A letter in lower case stays as it is. -/
theorem toLowerCase_idem (cs : Text) : toLowerCase (toLowerCase cs) = toLowerCase cs := by
  rw [toLowerCase, toLowerCase, List.map_map]
  refine List.map_congr_left (fun c _ => ?_)
  rw [Function.comp_apply]
  by_cases hkelvin : c = '\u212a'
  · rw [if_pos hkelvin]
    decide
  · rw [if_neg hkelvin]
    by_cases hupper : c.val ≥ 'A'.val ∧ c.val ≤ 'Z'.val
    · have hascii : c.toNat < 128 := lt_of_le_of_lt (UInt32.le_iff_toNat_le.mp hupper.2) (by decide)
      rw [← Char.ofNat_toNat c]
      exact (by decide : ∀ n : Fin 128, (if (Char.ofNat n).toLower = '\u212a' then 'k'
        else (Char.ofNat n).toLower.toLower) = (Char.ofNat n).toLower) ⟨c.toNat, hascii⟩
    · have hsame : c.toLower = c := dif_neg hupper
      rw [hsame, if_neg hkelvin, hsame]

/-- So none of its characters does. -/
theorem mem_field {field : Text} (h : isField field = true) :
    ∀ c ∈ field, isSpace c = false ∧ c ≠ ':' ∧ c ≠ '"' ∧ c ≠ '\\' := by
  cases field with
  | nil => exact fun c hc => absurd hc List.not_mem_nil
  | cons d field =>
      rw [isField, Bool.and_eq_true, List.all_eq_true] at h
      intro c hc
      rcases List.mem_cons.mp hc with rfl | hc
      · exact isFieldChar_spec (isFieldStart_spec h.1).1
      · exact isFieldChar_spec (h.2 c hc)

/-- White space has no lower case. -/
theorem lower_of_space {c : Char} (h : isSpace c = true) :
    (if c = '\u212a' then 'k' else c.toLower) = c := by
  have hkelvin : c ≠ '\u212a' := by
    rintro rfl
    exact absurd h (by decide)
  rw [if_neg hkelvin]
  refine dif_neg ?_
  rintro ⟨hA, hZ⟩
  have hascii : c.toNat < 128 := lt_of_le_of_lt (UInt32.le_iff_toNat_le.mp hZ) (by decide)
  have hletter : 65 ≤ c.toNat ∧ c.toNat ≤ 90 :=
    ⟨UInt32.le_iff_toNat_le.mp hA, UInt32.le_iff_toNat_le.mp hZ⟩
  rw [← Char.ofNat_toNat c] at h
  exact (by decide : ∀ n : Fin 128, isSpace (Char.ofNat n) = true → ¬ (65 ≤ n.1 ∧ n.1 ≤ 90))
    ⟨c.toNat, hascii⟩ h hletter

/-- What has the lower case of a field has no white space, no colon and no quote either. -/
theorem mem_name {name : Text} (h : isField (toLowerCase name) = true) :
    ∀ c ∈ name, isSpace c = false ∧ c ≠ ':' ∧ c ≠ '"' ∧ c ≠ '\\' := by
  intro c hc
  have hfield : ∀ {d : Char}, (if c = '\u212a' then 'k' else c.toLower) = d →
      isSpace d = false ∧ d ≠ ':' ∧ d ≠ '"' ∧ d ≠ '\\' := by
    rintro d rfl
    exact mem_field h _ (List.mem_map_of_mem hc)
  refine ⟨?_, ?_, ?_, ?_⟩
  · rw [Bool.eq_false_iff]
    intro hspace
    exact Bool.eq_false_iff.mp (hfield (lower_of_space hspace)).1 hspace
  · rintro rfl
    exact (hfield (by decide)).2.1 rfl
  · rintro rfl
    exact (hfield (by decide)).2.2.1 rfl
  · rintro rfl
    exact (hfield (by decide)).2.2.2 rfl

-- ── tokens ────────────────────────────────────────────────────────────────────

/-- The sign of a filter. -/
def sign (negated : Bool) : Text := if negated then ['-'] else []

/-- The sign of a token is read back. -/
theorem sign_eq {name : Text} (h : ¬ ['-'] <+: name) (negated : Bool) (rest : Text) :
    ['-'].isPrefixOf (sign negated ++ (name ++ ':' :: rest)) = negated := by
  cases negated with
  | true => rfl
  | false =>
      cases name with
      | nil => rfl
      | cons c name =>
          have hne : ('-' == c) = false := by
            rw [beq_eq_false_iff_ne]
            rintro rfl
            exact h ⟨name, rfl⟩
          show ('-' == c && ([] : Text).isPrefixOf (name ++ ':' :: rest)) = false
          rw [hne, Bool.false_and]

/-- The value begins behind the first colon. -/
theorem dropWhile_colon {name : Text} (h : ∀ c ∈ name, c ≠ ':') (rest : Text) :
    (name ++ ':' :: rest).dropWhile (· ≠ ':') = ':' :: rest := by
  rw [List.dropWhile_append_of_pos (fun c hc => decide_eq_true (h c hc)),
    List.dropWhile_cons_of_neg (by simp)]

/-- The field ends before it. -/
theorem takeWhile_colon {name : Text} (h : ∀ c ∈ name, c ≠ ':') (rest : Text) :
    (name ++ ':' :: rest).takeWhile (· ≠ ':') = name := by
  rw [List.takeWhile_append_of_pos (fun c hc => decide_eq_true (h c hc)),
    List.takeWhile_cons_of_neg (by simp), List.append_nil]

/-- Without its sign, a token is its field and value. -/
theorem body_eq (negated : Bool) (body : Text) :
    (if negated = true then (sign negated ++ body).tail else sign negated ++ body) = body := by
  cases negated <;> rfl

/-- A piece that is a sign, a name and a value. -/
theorem parseToken_name {name : Text} (h : isField (toLowerCase name) = true) (negated : Bool)
    (rawValue : Text) :
    parseToken (sign negated ++ (name ++ ':' :: rawValue))
      = if ['/', '/'] <+: rawValue then none
        else (normalizeTokenValue rawValue).map (fun value =>
          ⟨{ field := toLowerCase name, value := value, negated := negated },
            sign negated ++ (name ++ ':' :: rawValue)⟩) := by
  have hcolon : ∀ c ∈ name, c ≠ ':' := fun c hc => (mem_name h c hc).2.1
  have hsign : ¬ ['-'] <+: name := by
    rintro ⟨rest, rfl⟩
    exact nomatch h
  rw [parseToken]
  simp only [sign_eq hsign, body_eq, dropWhile_colon hcolon,
    takeWhile_colon hcolon, h, not_true_eq_false, if_false]
  simp only [List.isPrefixOf_iff_prefix]

/-- A piece that is a sign, a field and a value. -/
theorem parseToken_eq {field : Text} (h : GoodField field) (negated : Bool) (rawValue : Text) :
    parseToken (sign negated ++ (field ++ ':' :: rawValue))
      = if ['/', '/'] <+: rawValue then none
        else (normalizeTokenValue rawValue).map (fun value =>
          ⟨{ field := field, value := value, negated := negated },
            sign negated ++ (field ++ ':' :: rawValue)⟩) := by
  have hname := parseToken_name h.name negated rawValue
  rwa [h.lower] at hname

/-- A piece is its sign and the rest. -/
theorem sign_append_body (raw : Text) :
    raw = sign (['-'].isPrefixOf raw) ++ if ['-'].isPrefixOf raw then raw.tail else raw := by
  cases hsign : ['-'].isPrefixOf raw with
  | true =>
      obtain ⟨rest, rfl⟩ := List.isPrefixOf_iff_prefix.mp hsign
      rfl
  | false => rfl

/-- A text that has a colon is a name without one, the colon and the rest. -/
theorem eq_of_dropWhile_colon {body rest : Text} {c : Char}
    (h : body.dropWhile (· ≠ ':') = c :: rest) :
    body = body.takeWhile (· ≠ ':') ++ ':' :: rest ∧ ∀ d ∈ body.takeWhile (· ≠ ':'), d ≠ ':' := by
  have hcolon : c = ':' := by
    have hhead := List.head?_dropWhile_not (fun c => decide (c ≠ ':')) body
    rw [h] at hhead
    simpa using hhead
  have hbody := List.takeWhile_append_dropWhile (p := fun c => decide (c ≠ ':')) (l := body)
  rw [h, hcolon] at hbody
  refine ⟨hbody.symm, fun d hd => ?_⟩
  simpa using List.mem_takeWhile_imp hd

/-- The token of a piece stands in it, its field in any case. -/
theorem parseToken_some {raw : Text} {t : SearchToken} (h : parseToken raw = some t) :
    GoodField t.field ∧ t.raw = raw
      ∧ ∃ name rawValue, raw = sign t.negated ++ (name ++ ':' :: rawValue)
        ∧ toLowerCase name = t.field ∧ (∀ c ∈ name, c ≠ ':') ∧ ¬ ['/', '/'] <+: rawValue
        ∧ normalizeTokenValue rawValue = some t.value := by
  have hraw := sign_append_body raw
  rw [parseToken] at h
  generalize ['-'].isPrefixOf raw = negated at h hraw
  generalize (if negated = true then raw.tail else raw) = body at h hraw
  simp only at h
  split at h
  · exact nomatch h
  · next colon rawValue hdrop =>
      obtain ⟨hbody, hname⟩ := eq_of_dropWhile_colon hdrop
      split at h
      · exact nomatch h
      · next hfield =>
          split at h
          · exact nomatch h
          · next hslashes =>
              obtain ⟨value, hvalue, rfl⟩ := Option.map_eq_some_iff.mp h
              refine ⟨⟨not_not.mp hfield, toLowerCase_idem _⟩, rfl,
                body.takeWhile (fun c => decide (c ≠ ':')), rawValue, ?_, rfl, hname, ?_, hvalue⟩
              · rw [← hbody]
                exact hraw
              · rwa [List.isPrefixOf_iff_prefix] at hslashes

-- ── how far a text is read ────────────────────────────────────────────────────

/-- A piece ends at white space, outside of quotes and behind no backslash. -/
theorem cutter_ends_iff (r : Reading) (c : Char) :
    cutter.ends r c = true ↔ r = ⟨false, false⟩ ∧ isWhitespace c = true := by
  rw [Splitter.ends, Bool.and_eq_true, decide_eq_true_eq]
  rfl

/-- Anything else is read on. -/
theorem run_step {r : Reading} {c : Char} (h : isWhitespace c = false ∨ r ≠ ⟨false, false⟩)
    (cs : Text) : run cutter r (c :: cs) = run cutter (r.next c) cs := by
  rw [run, if_neg]
  · rfl
  · rw [cutter_ends_iff]
    rintro ⟨hr, hc⟩
    rcases h with h | h
    · exact Bool.false_ne_true (h.symm.trans hc)
    · exact h hr

/-- What is read within quotes, and what follows it. -/
theorem quotedRest_split {w y d : Text} (hy : y ≠ []) {escaped : Bool}
    (h : quotedRest escaped (w ++ y) = some d) :
    ∃ escaped' d₁ d₂, run cutter ⟨true, escaped⟩ w = some ⟨true, escaped'⟩
      ∧ quotedRest escaped' y = some d₂ ∧ d = d₁ ++ d₂ := by
  induction w generalizing escaped d with
  | nil => exact ⟨escaped, [], d, rfl, h, rfl⟩
  | cons c w ih =>
      rw [run_step (Or.inr (by simp))]
      cases escaped with
      | true =>
          obtain ⟨d', hd', rfl⟩ := Option.map_eq_some_iff.mp h
          obtain ⟨escaped', d₁, d₂, hrun, hrest, rfl⟩ := ih hd'
          exact ⟨escaped', c :: d₁, d₂, hrun, hrest, rfl⟩
      | false =>
          rw [List.cons_append, quotedRest] at h
          split at h
          · next hslash =>
              obtain ⟨escaped', d₁, d₂, hrun, hrest, rfl⟩ := ih h
              refine ⟨escaped', d₁, d₂, ?_, hrest, rfl⟩
              rw [← hrun, hslash]
              rfl
          · next hslash =>
              split at h
              · split at h
                · next hnil => exact absurd (List.append_eq_nil_iff.mp hnil).2 hy
                · exact nomatch h
              · next hquote =>
                  obtain ⟨d', hd', rfl⟩ := Option.map_eq_some_iff.mp h
                  obtain ⟨escaped', d₁, d₂, hrun, hrest, rfl⟩ := ih hd'
                  refine ⟨escaped', c :: d₁, d₂, ?_, hrest, rfl⟩
                  have hnext : Reading.next ⟨true, false⟩ c = ⟨true, false⟩ := by
                    simp [Reading.next, hslash, hquote]
                  rw [hnext, hrun]

/-- Characters that neither quote nor escape nor end a piece. -/
theorem run_ordinary {cs : Text} (h : ∀ c ∈ cs, isSpace c = false ∧ c ≠ '"' ∧ c ≠ '\\') :
    run cutter ⟨false, false⟩ cs = some ⟨false, false⟩ := by
  induction cs with
  | nil => rfl
  | cons c cs ih =>
      obtain ⟨hspace, hquote, hslash⟩ := h c (List.mem_cons_self ..)
      have hblank : isWhitespace c = false := isWhitespace_of_not_space hspace
      have hnext : Reading.next ⟨false, false⟩ c = ⟨false, false⟩ := by
        simp [Reading.next, hquote, hslash]
      rw [run_step (Or.inl hblank), hnext]
      exact ih (fun d hd => h d (List.mem_cons_of_mem _ hd))

/-- An escaped value is read within its quotes. -/
theorem run_escape (v : Text) : run cutter ⟨true, false⟩ (escape v) = some ⟨true, false⟩ := by
  induction v with
  | nil => rfl
  | cons c v ih =>
      rw [escape_cons]
      by_cases hslash : c = '\\'
      · rw [if_pos hslash]
        exact ih
      · rw [if_neg hslash]
        by_cases hquote : c = '"'
        · rw [if_pos hquote]
          exact ih
        · have hnext : Reading.next ⟨true, false⟩ c = ⟨true, false⟩ := by
            simp [Reading.next, hslash, hquote]
          rw [if_neg hquote, List.singleton_append, run_step (Or.inr (by decide)), hnext]
          exact ih

/-- An odd number of backslashes stands at the end of the value. -/
def endsEscaped (value : Text) : Bool :=
  (value.reverse.takeWhile (fun c => c == '\\')).length % 2 == 1

/-- The last character decides whether the next one is escaped. -/
theorem endsEscaped_concat (v : Text) (c : Char) :
    endsEscaped (v ++ [c]) = if c = '\\' then !endsEscaped v else false := by
  rw [endsEscaped, List.reverse_concat]
  by_cases hc : c = '\\'
  · rw [if_pos hc, List.takeWhile_cons_of_pos (by simp [hc]), List.length_cons, endsEscaped]
    rcases Nat.mod_two_eq_zero_or_one (v.reverse.takeWhile (fun c => c == '\\')).length with h | h
    · simp [h, Nat.add_mod]
    · simp [h, Nat.add_mod]
  · rw [if_neg hc, List.takeWhile_cons_of_neg (by simp [hc])]
    rfl

/-- A value without white space and quotes is read on behind a last backslash. -/
theorem run_plain {v : Text} (h : ∀ c ∈ v, isSpace c = false ∧ c ≠ '"') :
    run cutter ⟨false, false⟩ v = some ⟨false, endsEscaped v⟩ := by
  induction v using List.reverseRecOn with
  | nil => rfl
  | append_singleton v c ih =>
      obtain ⟨hspace, hquote⟩ := h c (by simp)
      have hblank : isWhitespace c = false := isWhitespace_of_not_space hspace
      rw [run_append_of (ih (fun d hd => h d (List.mem_append_left _ hd))),
        run_step (Or.inl hblank), run_nil, endsEscaped_concat]
      cases endsEscaped v with
      | true => simp [Reading.next]
      | false =>
          by_cases hslash : c = '\\'
          · simp [Reading.next, hslash]
          · simp [Reading.next, hslash, hquote]

/-- The value is printed without quotes and reads as a part of an address. -/
def Slashed (value : Text) : Prop := needsQuotes value = false ∧ ['/', '/'] <+: value

/-- The value is printed without quotes and ends behind a backslash. -/
def dangles (value : Text) : Bool := !needsQuotes value && endsEscaped value

/-- A printed value is read to its end, outside of quotes; a last backslash may dangle. -/
theorem run_serializeValue (v : Text) :
    run cutter ⟨false, false⟩ (serializeValue v) = some ⟨false, dangles v⟩ := by
  rw [dangles]
  cases hquotes : needsQuotes v with
  | true =>
      rw [serializeValue, if_pos hquotes, run_step (Or.inl (by decide)),
        show Reading.next ⟨false, false⟩ '"' = ⟨true, false⟩ from rfl,
        run_append_of (run_escape v)]
      rfl
  | false =>
      rw [serializeValue, if_neg (by simp [hquotes])]
      exact run_plain (not_quoted_of_plain hquotes).2

/-- A sign changes nothing. -/
theorem run_sign (negated : Bool) :
    run cutter ⟨false, false⟩ (sign negated) = some ⟨false, false⟩ := by
  cases negated <;> rfl

theorem formatToken_eq (t : Filter) :
    formatToken t = sign t.negated ++ (t.field ++ ':' :: serializeValue t.value) := rfl

/-- A printed filter is one piece, and open at its end only behind a last backslash. -/
theorem run_format {t : Filter} (h : GoodField t.field) :
    run cutter ⟨false, false⟩ (formatToken t) = some ⟨false, dangles t.value⟩ := by
  rw [formatToken_eq, run_append_of (run_sign t.negated), run_append_of (run_ordinary ?_),
    run_step (Or.inl (by decide))]
  · exact run_serializeValue t.value
  · intro c hc
    obtain ⟨hspace, -, hquote, hslash⟩ := mem_field h.isField c hc
    exact ⟨hspace, hquote, hslash⟩

/-- Only a value that is printed without quotes can look like a path. -/
theorem slashes_serializeValue_iff (v : Text) :
    ['/', '/'] <+: serializeValue v ↔ Slashed v := by
  rw [serializeValue, Slashed]
  cases hquotes : needsQuotes v with
  | true =>
      rw [if_pos rfl]
      constructor
      · rintro ⟨rest, hrest⟩
        exact nomatch (List.cons.inj hrest).1
      · exact fun h => nomatch h.1
  | false => simp

open Classical in
/-- A printed filter reads as the same filter, unless its value reads as part of an
    address. -/
theorem parseToken_format {t : Filter} (h : GoodField t.field) :
    parseToken (formatToken t)
      = if Slashed t.value then none else some ⟨t, formatToken t⟩ := by
  rw [formatToken_eq, parseToken_eq h]
  simp only [slashes_serializeValue_iff, normalizeTokenValue_serializeValue]
  rfl

-- ── what a piece becomes ──────────────────────────────────────────────────────

/-- The free text that a piece leaves. -/
def freeSegment (raw : Text) : Option Text :=
  if (parseToken raw).isSome then none else some (decodeFreeTextSegment raw)

/-- The filter that a piece is. -/
def filterOf (raw : Text) : Option Filter := (parseToken raw).map (·.toFilter)

/-- The free text, piece by piece. -/
theorem segments_eq (input : Text) :
    segments input = (pieces cutter input).filterMap freeSegment := by
  rw [segments, List.filterMap_map]
  refine List.filterMap_congr (fun p _ => ?_)
  rw [Function.comp_apply, readPiece, freeSegment]
  cases parseToken p <;> rfl

/-- The filters, piece by piece. -/
theorem filters_eq (input : Text) :
    (parseSearch input).tokens.map (·.toFilter) = (pieces cutter input).filterMap filterOf := by
  rw [parseSearch, List.filterMap_map, List.map_filterMap]
  refine List.filterMap_congr (fun p _ => ?_)
  rw [Function.comp_apply, readPiece, filterOf]
  cases parseToken p <;> rfl

/-- A piece that is a token is no free text. -/
theorem segment_of_token {p : Text} (h : parseToken p ≠ none) : freeSegment p = none :=
  if_pos (Option.isSome_iff_ne_none.mpr h)

/-- A piece that is no token is free text. -/
theorem segment_of_none {p : Text} (h : parseToken p = none) :
    freeSegment p = some (decodeFreeTextSegment p) := by
  rw [freeSegment, h]
  rfl

theorem length_segment_le (p d : Text) (h : freeSegment p = some d) : d.length ≤ p.length := by
  rw [freeSegment] at h
  split at h
  · exact nomatch h
  · rw [← Option.some.inj h, decodeFreeTextSegment]
    cases hquoted : parseQuotedValue p with
    | none => exact le_rfl
    | some d => exact (length_parseQuotedValue hquoted).le

/-- A segment as long as its piece is the piece, and the piece neither a token nor in
    quotes. -/
theorem segment_full {p d : Text} (h : freeSegment p = some d) (hlength : d.length = p.length) :
    d = p ∧ parseToken p = none ∧ parseQuotedValue p = none := by
  rw [freeSegment] at h
  split at h
  · exact nomatch h
  · next htoken =>
      rw [Bool.not_eq_true, Option.isSome_eq_false_iff, Option.isNone_iff_eq_none] at htoken
      rw [← Option.some.inj h, decodeFreeTextSegment] at hlength ⊢
      cases hquoted : parseQuotedValue p with
      | none => exact ⟨rfl, htoken, rfl⟩
      | some d =>
          rw [hquoted] at hlength
          exact absurd hlength (length_parseQuotedValue hquoted).ne

end DevstackSearchParser
