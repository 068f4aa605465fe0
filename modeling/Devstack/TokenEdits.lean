import Devstack.SearchQuery
import Devstack.TrimmedSearch

/-! # Token edits — a token added to a search, removed or replaced

    `addToken`, `removeToken` and `replaceAllTokens` of `src/lib/search-parser.ts` in the
    dashboard.  A token is added behind the trimmed search as it is written; where one is
    removed or replaced, all that is left is printed anew.

    * `appended_iff`: a token that is added is read as one exactly if the search is over
      where it ends and the token is no part of an address; there is one other such token,
      which closes a quote that is open and leaves the same one open behind it;
    * `obeys_iff`: what each edit keeps of the search, and when. -/

namespace DevstackTokenEdits

open DevstackSplitting DevstackSearchParser DevstackSearchRoundTrip DevstackSearchEdits
  DevstackSearchQuery DevstackTrimmedSearch

-- ── search-parser.ts ──────────────────────────────────────────────────────────

def addToken (input field value : Text) : Text :=
  let nextToken := formatToken ⟨toLowerCase field, value, false⟩
  let trimmed := trim input
  if trimmed = [] then nextToken else trimmed ++ ' ' :: nextToken

def removeToken (input raw : Text) : Text :=
  let parsed := parseSearch input
  match parsed.tokens.findIdx? (fun token => token.raw == raw) with
  | none => trim input
  | some tokenIndex =>
      buildSearch ((parsed.tokens.eraseIdx tokenIndex).map (·.toFilter)) parsed.freeText

def replaceAllTokens (input field value : Text) : Text :=
  let normalizedField := toLowerCase field
  let parsed := parseSearch input
  let nextTokens := parsed.tokens.filter (fun token => decide (token.field ≠ normalizedField))
  buildSearch (nextTokens.map (·.toFilter) ++ [⟨normalizedField, value, false⟩]) parsed.freeText

-- ── what the claim is about ───────────────────────────────────────────────────

/-- A search with these tokens and this free text. -/
structure Reads (x : Text) (ts : List Filter) (freeText : Text) : Prop where
  filters : filters x = ts
  freeText : (parseSearch x).freeText = freeText

/-- The new token comes behind those of the search. -/
def Adds (input field value : Text) : Prop :=
  Reads (addToken input field value) (filters input ++ [⟨toLowerCase field, value, false⟩])
    (parseSearch input).freeText

/-- The tokens without the first one that is written like this. -/
def withoutFirst (input raw : Text) : List Filter :=
  ((parseSearch input).tokens.eraseP (fun token => token.raw == raw)).map (·.toFilter)

def Removes (input raw : Text) : Prop :=
  Reads (removeToken input raw) (withoutFirst input raw) (parseSearch input).freeText

/-- The tokens on other fields, and the new one. -/
def replaced (input field value : Text) : List Filter :=
  others (toLowerCase field) (filters input) ++ [⟨toLowerCase field, value, false⟩]

def Replaces (input field value : Text) : Prop :=
  Reads (replaceAllTokens input field value) (replaced input field value)
    (parseSearch input).freeText

/-- The last piece of the search is over where it ends: no quote is open, and no backslash
    stands there. -/
def Over (x : Text) : Prop := ∀ p ∈ (pieces cutter x).getLast?, Closed cutter p

/-- The last piece is the field with an open quote, and the value that field once more. -/
def Echo (x : Text) (t : Filter) : Prop :=
  (pieces cutter x).getLast? = some (t.field ++ [':', '"']) ∧ t.value = ' ' :: (t.field ++ [':'])

-- ── within quotes ─────────────────────────────────────────────────────────────

/-- Characters that neither end the quotes nor escape. -/
def Inner (cs : Text) : Prop := ∀ c ∈ cs, c ≠ '"' ∧ c ≠ '\\'

theorem quotedRest_inner {cs : Text} (h : Inner cs) (y : Text) :
    quotedRest false (cs ++ y) = (quotedRest false y).map (cs ++ ·) := by
  induction cs with
  | nil => simp
  | cons c cs ih =>
      obtain ⟨⟨hquote, hslash⟩, hcs⟩ := List.forall_mem_cons.mp h
      rw [List.cons_append, quotedRest, if_neg hslash, if_neg hquote, ih hcs, Option.map_map]
      rfl

theorem run_inner {cs : Text} (h : Inner cs) :
    run cutter ⟨true, false⟩ cs = some ⟨true, false⟩ := by
  induction cs with
  | nil => rfl
  | cons c cs ih =>
      obtain ⟨⟨hquote, hslash⟩, hcs⟩ := List.forall_mem_cons.mp h
      have hnext : Reading.next ⟨true, false⟩ c = ⟨true, false⟩ := by
        simp [Reading.next, hslash, hquote]
      rw [run_step (Or.inr (by simp)), hnext]
      exact ih hcs

/-- Nothing ends the piece while no quote ends the quotes. -/
theorem run_unquoted {cs : Text} (h : ∀ c ∈ cs, c ≠ '"') (escaped : Bool) :
    ∃ escaped', run cutter ⟨true, escaped⟩ cs = some ⟨true, escaped'⟩ := by
  induction cs generalizing escaped with
  | nil => exact ⟨escaped, rfl⟩
  | cons c cs ih =>
      obtain ⟨hquote, hcs⟩ := List.forall_mem_cons.mp h
      have hnext : ∃ escaped', Reading.next ⟨true, escaped⟩ c = ⟨true, escaped'⟩ := by
        by_cases hslash : c = '\\'
        · cases escaped <;> simp [Reading.next, hslash]
        · cases escaped <;> simp [Reading.next, hslash, hquote]
      obtain ⟨escaped', hnext⟩ := hnext
      rw [run_step (Or.inr (by simp)), hnext]
      exact ih hcs escaped'

/-- What is in quotes is over with them. -/
theorem run_quotedRest {escaped : Bool} {cs d : Text} (h : quotedRest escaped cs = some d) :
    run cutter ⟨true, escaped⟩ cs = some ⟨false, false⟩ := by
  obtain ⟨init, rfl⟩ := ends_of_quotedRest h
  obtain ⟨escaped', d₁, d₂, hrun, hrest, -⟩ := quotedRest_split (by simp) h
  rw [run_append_of hrun]
  cases escaped' with
  | true => exact nomatch hrest
  | false => rfl

theorem closed_of_quoted {p d : Text} (h : parseQuotedValue p = some d) : Closed cutter p := by
  unfold parseQuotedValue at h
  split at h
  · refine ⟨List.cons_ne_nil _ _, ?_⟩
    show run cutter ⟨false, false⟩ _ = some ⟨false, false⟩
    rw [run_step (Or.inl (by decide))]
    exact run_quotedRest h
  · cases h

-- ── what is escaped ───────────────────────────────────────────────────────────

theorem escape_append (x y : Text) : escape (x ++ y) = escape x ++ escape y := by
  rw [escape, replaceAll, replaceAll, List.flatMap_append, List.flatMap_append]
  rfl

theorem escape_inner {v : Text} (h : Inner v) : escape v = v := by
  induction v with
  | nil => rfl
  | cons c v ih =>
      obtain ⟨⟨hquote, hslash⟩, hv⟩ := List.forall_mem_cons.mp h
      rw [escape_cons, if_neg hslash, if_neg hquote, ih hv]
      rfl

theorem mem_escape {v : Text} {c : Char} (h : c ∈ escape v) : c ∈ v ∨ c = '\\' := by
  induction v with
  | nil => exact absurd h List.not_mem_nil
  | cons d v ih =>
      rw [escape_cons] at h
      rcases List.mem_append.mp h with h | h
      · have hmem : c = d ∨ c = '\\' := by
          split at h
          · exact Or.inr (by simpa using h)
          · split at h
            · next hquote =>
                rw [hquote]
                exact (List.mem_cons.mp h).symm.imp_left List.mem_singleton.mp
            · exact Or.inl (List.mem_singleton.mp h)
        exact hmem.imp_left fun heq => List.mem_cons.mpr (Or.inl heq)
      · exact (ih h).imp_left (List.mem_cons_of_mem d)

/-- A quote that is escaped stands behind a backslash. -/
theorem quote_of_escape {v a b : Text} (h : escape v = a ++ '"' :: b) :
    ∃ a', a = a' ++ ['\\'] := by
  induction v generalizing a with
  | nil => simp at h
  | cons c v ih =>
      rw [escape_cons] at h
      -- the first character is no quote, or escaped
      split at h
      · match a, h with
        | [d], h => exact nomatch (List.cons.inj (List.cons.inj h).2).1
        | d :: e :: a, h =>
            obtain ⟨a', rfl⟩ := ih (List.cons.inj (List.cons.inj h).2).2
            exact ⟨d :: e :: a', rfl⟩
      · split at h
        · match a, h with
          | [d], h => exact ⟨[], by rw [← (List.cons.inj h).1]; rfl⟩
          | d :: e :: a, h =>
              obtain ⟨a', rfl⟩ := ih (List.cons.inj (List.cons.inj h).2).2
              exact ⟨d :: e :: a', rfl⟩
        · next hquote =>
            match a, h with
            | [], h => exact absurd (List.cons.inj h).1 hquote
            | d :: a, h =>
                obtain ⟨a', rfl⟩ := ih (List.cons.inj h).2
                exact ⟨d :: a', rfl⟩

/-- Every blank ends a word. -/
def blanks : Splitter Char Unit where
  start := ()
  next := fun _ _ => ()
  blank := isWhitespace

/-- Nothing ends an escaped word. -/
theorem run_escape_word {v : Text} (h : ∀ c ∈ v, isWhitespace c = false) :
    run cutter ⟨false, false⟩ (escape v) = some ⟨false, false⟩ := by
  induction v with
  | nil => rfl
  | cons c v ih =>
      obtain ⟨hc, hv⟩ := List.forall_mem_cons.mp h
      rw [escape_cons]
      by_cases hslash : c = '\\'
      · rw [if_pos hslash]
        exact ih hv
      · rw [if_neg hslash]
        by_cases hquote : c = '"'
        · rw [if_pos hquote]
          exact ih hv
        · have hnext : Reading.next ⟨false, false⟩ c = ⟨false, false⟩ := by
            simp [Reading.next, hslash, hquote]
          rw [if_neg hquote, List.singleton_append, run_step (Or.inl hc), hnext]
          exact ih hv

theorem escape_ne_nil {v : Text} (h : v ≠ []) : escape v ≠ [] := by
  obtain ⟨c, v, rfl⟩ := List.exists_cons_of_ne_nil h
  rw [escape_cons]
  split
  · exact List.cons_ne_nil _ _
  · split <;> exact List.cons_ne_nil _ _

/-- An escaped text with a quote behind it is cut into its words. -/
theorem escaped_pieces (v : Text) :
    ∃ (words : List Text) (last : Text),
      (∀ w ∈ words, ∀ c ∈ w, isWhitespace c = false)
      ∧ (∀ c ∈ last, isWhitespace c = false)
      ∧ pieces cutter (escape v ++ ['"']) = words.map escape ++ [escape last ++ ['"']] := by
  have hone : ∀ {w : Text}, (∀ c ∈ w, isWhitespace c = false) →
      pieces cutter (escape w ++ ['"']) = [escape w ++ ['"']] := by
    intro w hw
    refine pieces_whole ⟨by simp, ⟨true, false⟩, ?_⟩
    show run cutter ⟨false, false⟩ (escape w ++ ['"']) = _
    rw [run_append_of (run_escape_word hw)]
    rfl
  have hblank : ∀ {w}, isWhitespace w = true → ∀ cs, escape (w :: cs) = w :: escape cs := by
    intro w hw cs
    have hslash : w ≠ '\\' := by
      rintro rfl
      exact nomatch hw
    have hquote : w ≠ '"' := by
      rintro rfl
      exact nomatch hw
    rw [escape_cons, if_neg hslash, if_neg hquote]
    rfl
  induction v using split_induction (k := blanks) with
  | nil => exact ⟨[], [], by simp, by simp, hone (by simp)⟩
  | blank w cs hw ih =>
      obtain ⟨words, last, hwords, hlast, hpieces⟩ := ih
      refine ⟨words, last, hwords, hlast, ?_⟩
      rw [hblank hw, List.cons_append, pieces_blank (k := cutter) hw, hpieces]
  | last p hp =>
      obtain ⟨-, st, hrun⟩ := hp
      have hp : ∀ c ∈ p, isWhitespace c = false := run_blanks_iff.mp hrun
      exact ⟨[], p, by simp, hp, hone hp⟩
  | piece p w rest hp hw ih =>
      obtain ⟨words, last, hwords, hlast, hpieces⟩ := ih
      obtain ⟨hne, hp⟩ := closed_blanks_iff.mp hp
      refine ⟨p :: words, last, List.forall_mem_cons.mpr ⟨hp, hwords⟩, hlast, ?_⟩
      have hclosed : Closed cutter (escape p) := ⟨escape_ne_nil hne, run_escape_word hp⟩
      rw [escape_append, hblank hw, List.append_assoc, List.cons_append,
        pieces_closed (k := cutter) hclosed hw, hpieces]
      rfl

theorem joinBy_escape (words : List Text) (last : Text) :
    joinBy ' ' (words.map escape ++ [escape last ++ ['"']])
      = escape (joinBy ' ' (words ++ [last])) ++ ['"'] := by
  induction words with
  | nil => rfl
  | cons w words ih =>
      rw [List.map_cons, List.cons_append, List.cons_append, joinBy_cons _ _ (by simp),
        joinBy_cons _ _ (by simp), ih, escape_append, List.append_assoc]
      rfl

-- ── a piece that is not over ──────────────────────────────────────────────────

theorem inner_field {field : Text} (h : GoodField field) : Inner (' ' :: (field ++ [':'])) := by
  intro c hc
  rcases List.mem_cons.mp hc with rfl | hc
  · decide
  · rcases List.mem_append.mp hc with hc | hc
    · exact (mem_field h.isField c hc).2.2
    · rw [List.mem_singleton.mp hc]
      decide

/-- What is written of a token in front of its value in quotes. -/
def opening (t : Filter) : Text := ' ' :: (t.field ++ [':']) ++ ['"']

theorem format_cases {t : Filter} (hsign : t.negated = false) :
    ' ' :: formatToken t = ' ' :: (t.field ++ [':']) ++ t.value ∧ (∀ c ∈ t.value, c ≠ '"')
      ∨ ' ' :: formatToken t = opening t ++ (escape t.value ++ ['"']) := by
  rw [formatToken_eq, hsign, serializeValue]
  cases hquotes : needsQuotes t.value with
  | false => exact Or.inl ⟨by simp [sign], fun c hc => ((not_quoted_of_plain hquotes).2 c hc).2⟩
  | true => exact Or.inr (by simp [sign, opening])

/-- A token behind a piece that is not over is all taken in, or as far as a blank in its
    value in quotes. -/
theorem open_pieces {p : Text} {t : Filter} (hp : Whole cutter p) (hopen : ¬ Closed cutter p)
    (ht : GoodField t.field) (hsign : t.negated = false) :
    pieces cutter (p ++ ' ' :: formatToken t) = [p ++ ' ' :: formatToken t]
      ∨ ∃ u rest, takePiece cutter ⟨false, false⟩ (escape t.value ++ ['"']) = (u, rest)
        ∧ pieces cutter (p ++ ' ' :: formatToken t)
          = (p ++ (opening t ++ u)) :: pieces cutter rest := by
  obtain ⟨hne, st, hrun⟩ := hp
  have hst : st ≠ ⟨false, false⟩ := fun heq => hopen ⟨hne, hrun.trans (congrArg some heq)⟩
  have hwhole : ∀ {z st'}, run cutter st z = some st' → pieces cutter (p ++ z) = [p ++ z] := by
    intro z st' hz
    exact pieces_whole ⟨by simp [hne], st', by rw [run_append_of hrun, hz]⟩
  by_cases hquotes : st.inQuotes = true
  · -- within quotes
    have hst : st = ⟨true, st.escaped⟩ := by rw [← hquotes]
    rcases format_cases hsign with ⟨hformat, hplain⟩ | hformat
    · have hall : ∀ c ∈ ' ' :: (t.field ++ [':']) ++ t.value, c ≠ '"' := by
        intro c hc
        rcases List.mem_append.mp hc with hc | hc
        · exact (inner_field ht c hc).1
        · exact hplain c hc
      obtain ⟨escaped, hread⟩ := run_unquoted hall st.escaped
      rw [← hst] at hread
      exact Or.inl (hformat ▸ hwhole hread)
    · obtain ⟨u, rest, htake⟩ : ∃ u rest,
          takePiece cutter ⟨false, false⟩ (escape t.value ++ ['"']) = (u, rest) := ⟨_, _, rfl⟩
      have hopening : run cutter cutter.start (p ++ opening t) = some ⟨false, false⟩ := by
        have hnext : run cutter st (' ' :: (t.field ++ [':'])) = some ⟨true, false⟩ := by
          have hinner := run_inner (inner_field ht)
          rw [run_step (Or.inr (by simp))] at hinner
          rw [hst, run_step (Or.inr (by simp)), ← hinner]
          cases st.escaped <;> rfl
        rw [run_append_of hrun, opening, run_append_of hnext]
        rfl
      have hpieces := pieces_run (by simp [hne]) hopening (escape t.value ++ ['"'])
      rw [htake, List.append_assoc, List.append_assoc] at hpieces
      exact Or.inr ⟨u, rest, htake, hformat ▸ hpieces⟩
  · -- behind a backslash, which takes the blank in
    have hst : st = ⟨false, true⟩ := by
      obtain ⟨inQuotes, escaped⟩ := st
      cases inQuotes <;> cases escaped <;> simp_all
    have hread : run cutter st (' ' :: formatToken t) = some ⟨false, dangles t.value⟩ := by
      rw [hst, run_step (Or.inr (by decide))]
      exact run_format ht
    exact Or.inl (hwhole hread)

/-- The quote in front of the value ends the quotes that are open. -/
theorem quotes_end {t : Filter} (ht : GoodField t.field) {escaped : Bool} {w u d : Text}
    (h : quotedRest escaped (w ++ (opening t ++ u)) = some d) :
    u = [] ∧ ∃ d', d = d' ++ ' ' :: (t.field ++ [':']) := by
  obtain ⟨escaped', d', d₂, -, hrest, rfl⟩ := quotedRest_split (by simp [opening]) h
  have hblank : quotedRest escaped' (opening t ++ u) = quotedRest false (opening t ++ u) := by
    cases escaped' <;> rfl
  rw [hblank, opening, List.append_assoc, quotedRest_inner (inner_field ht)] at hrest
  obtain ⟨d₃, hquote, rfl⟩ := Option.map_eq_some_iff.mp hrest
  rw [List.singleton_append, quotedRest, if_neg (by decide), if_pos rfl] at hquote
  split at hquote
  · next hnil =>
      rw [← Option.some.inj hquote, List.append_nil]
      exact ⟨hnil, d', rfl⟩
  · cases hquote

/-- Where nothing of the value is taken in, it begins with a blank. -/
theorem blank_of_take {v rest : Text}
    (h : takePiece cutter ⟨false, false⟩ (escape v ++ ['"']) = ([], rest)) :
    rest = escape v ++ ['"'] ∧ ∃ c ∈ v, isWhitespace c = true := by
  have happend := takePiece_append cutter ⟨false, false⟩ (escape v ++ ['"'])
  rw [h, List.nil_append] at happend
  refine ⟨happend, ?_⟩
  cases v with
  | nil => exact nomatch congrArg Prod.fst h
  | cons c v =>
      refine ⟨c, List.mem_cons_self .., ?_⟩
      by_contra hc
      rw [Bool.not_eq_true] at hc
      have hfirst : ∃ d cs, escape (c :: v) ++ ['"'] = d :: cs ∧ isWhitespace d = false := by
        rw [escape_cons]
        split
        · exact ⟨_, _, rfl, by decide⟩
        · split
          · exact ⟨_, _, rfl, by decide⟩
          · exact ⟨_, _, rfl, hc⟩
      obtain ⟨d, cs, hcons, hd⟩ := hfirst
      obtain ⟨q, rest', htake, -, hends⟩ := takePiece_first (k := cutter) hd cs
      rw [hcons] at h
      have hq : q = [] := congrArg Prod.fst (htake.symm.trans h)
      exact hends.elim (fun hwhole => hwhole.1.1 hq) (fun hclosed => hclosed.1.1 hq)

theorem mem_of_filterOf {p : Text} {t : Filter} (h : filterOf p = some t) :
    ∀ c ∈ t.value, c ∈ p := by
  obtain ⟨token, htoken, rfl⟩ := Option.map_eq_some_iff.mp h
  obtain ⟨-, -, name, raw, hp, -, -, -, hvalue⟩ := parseToken_some htoken
  intro c hc
  have hraw : c ∈ raw := by
    rcases normalizeTokenValue_cases hvalue with hquoted | hplain
    · exact mem_of_parseQuotedValue hquoted c hc
    · exact hplain ▸ hc
  rw [hp]
  simp [hraw]

/-- No token with a blank in its value is read of an escaped text. -/
theorem no_blank_read {v : Text} {t : Filter}
    (h : t ∈ (pieces cutter (escape v ++ ['"'])).filterMap filterOf) :
    ∀ c ∈ t.value, isWhitespace c = false := by
  obtain ⟨words, last, hwords, hlast, hpieces⟩ := escaped_pieces v
  obtain ⟨p, hp, hfilter⟩ := List.mem_filterMap.mp h
  have hescape : ∀ {w : Text}, (∀ c ∈ w, isWhitespace c = false) →
      ∀ c ∈ escape w, isWhitespace c = false := by
    intro w hw c hc
    rcases mem_escape hc with hc | rfl
    · exact hw c hc
    · decide
  intro c hc
  have hc := mem_of_filterOf hfilter c hc
  rw [hpieces] at hp
  rcases List.mem_append.mp hp with hp | hp
  · obtain ⟨w, hw, rfl⟩ := List.mem_map.mp hp
    exact hescape (hwords w hw) c hc
  · rw [List.mem_singleton.mp hp] at hc
    rcases List.mem_append.mp hc with hc | hc
    · exact hescape hlast c hc
    · rw [List.mem_singleton.mp hc]
      decide

/-- The name and the colon of a token stand in front of its first blank. -/
theorem name_before_blank {p z name raw : Text} (hname : ' ' ∉ name)
    (h : p ++ ' ' :: z = name ++ ':' :: raw) :
    ∃ w, p = name ++ ':' :: w ∧ raw = w ++ ' ' :: z := by
  rcases List.append_eq_append_iff.mp h with ⟨cs, hcs, hrest⟩ | ⟨cs, hcs, hrest⟩
  · cases cs with
    | nil => exact nomatch (List.cons.inj hrest).1
    | cons c cs =>
        rw [hcs, (List.cons.inj hrest).1] at hname
        exact absurd (by simp) hname
  · cases cs with
    | nil => exact nomatch (List.cons.inj hrest).1
    | cons c cs =>
        obtain ⟨rfl, rfl⟩ := List.cons.inj hrest
        exact ⟨cs, hcs, rfl⟩

theorem run_name {name : Text} (h : isField (toLowerCase name) = true) :
    run cutter ⟨false, false⟩ (name ++ [':']) = some ⟨false, false⟩ := by
  refine run_ordinary fun c hc => ?_
  rcases List.mem_append.mp hc with hc | hc
  · obtain ⟨hspace, -, hquote, hslash⟩ := mem_name h c hc
    exact ⟨hspace, hquote, hslash⟩
  · rw [List.mem_singleton.mp hc]
    decide

theorem run_quote {field : Text} (h : GoodField field) :
    run cutter ⟨false, false⟩ (field ++ [':', '"']) = some ⟨true, false⟩ := by
  have hname := run_name h.name
  show run cutter ⟨false, false⟩ (field ++ ([':'] ++ ['"'])) = _
  rw [← List.append_assoc, run_append_of hname]
  rfl

/-- A field with an open quote is a piece. -/
theorem pieces_quote {field : Text} (h : GoodField field) :
    pieces cutter (field ++ [':', '"']) = [field ++ [':', '"']] :=
  pieces_whole ⟨by simp, _, run_quote h⟩

/-- And free text. -/
theorem plain_quote {field : Text} (h : GoodField field) : Plain (field ++ [':', '"']) := by
  constructor
  · have htoken := parseToken_eq h false ['"']
    change parseToken (field ++ [':', '"']) = _ at htoken
    rw [htoken]
    rfl
  · refine parseQuotedValue_of_not_quoted ?_
    rintro ⟨z, hz⟩
    cases field with
    | nil => exact nomatch h.isField
    | cons c field =>
        exact (mem_field h.isField c (List.mem_cons_self ..)).2.2.1 (List.cons.inj hz).1.symm

/-- A token that takes in a piece that is free text closes a quote that stands open behind
    the name of its field. -/
theorem merged_token {p u rest : Text} {t : Filter} (hopen : ¬ Closed cutter p)
    (hfree : parseToken p = none) (ht : GoodField t.field) (hsign : t.negated = false)
    (htake : takePiece cutter ⟨false, false⟩ (escape t.value ++ ['"']) = (u, rest))
    (hmerged : filterOf (p ++ (opening t ++ u)) = some t) :
    ∃ name w, toLowerCase name = t.field ∧ p = name ++ ':' :: '"' :: w
      ∧ quotedRest false (w ++ opening t) = some t.value ∧ rest = escape t.value ++ ['"'] := by
  obtain ⟨token, htoken, hsame⟩ := Option.map_eq_some_iff.mp hmerged
  obtain ⟨-, -, name, raw, hp, hlower, -, hslashes, hvalue⟩ := parseToken_some htoken
  rw [congrArg Filter.negated hsame, hsign] at hp
  rw [congrArg Filter.field hsame] at hlower
  rw [congrArg Filter.value hsame] at hvalue
  have hgood : isField (toLowerCase name) = true := by
    rw [hlower]
    exact ht.isField
  have hblank : ' ' ∉ name := fun hmem => nomatch (mem_name hgood ' ' hmem).1
  obtain ⟨w, rfl, rfl⟩ := name_before_blank hblank hp
  -- what stands behind the colon is no value by itself
  have hnone := parseToken_name hgood false w
  change parseToken (name ++ ':' :: w) = _ at hnone
  rw [hfree, if_neg (fun h => hslashes (h.trans (List.prefix_append _ _)))] at hnone
  have hnone := Option.map_eq_none_iff.mp hnone.symm
  cases w with
  | nil => exact absurd ⟨by simp, run_name hgood⟩ hopen
  | cons c w =>
      by_cases hquote : c = '"'
      · subst hquote
        change quotedRest false (w ++ (opening t ++ u)) = some t.value at hvalue
        obtain ⟨rfl, -⟩ := quotes_end ht hvalue
        rw [List.append_nil] at hvalue
        exact ⟨name, w, hlower, rfl, hvalue, (blank_of_take htake).1⟩
      · rw [normalizeTokenValue_of_not_quoted (List.cons_ne_nil _ _)] at hnone
        · exact nomatch hnone
        · rintro ⟨z, hz⟩
          exact hquote (List.cons.inj hz).1.symm

/-- The words of an escaped text are free text as they stand, if they are no tokens. -/
theorem segments_escaped {v : Text}
    (h : (pieces cutter (escape v ++ ['"'])).filterMap filterOf = []) :
    ∃ v', joinBy ' ' (segments (escape v ++ ['"'])) = escape v' ++ ['"'] := by
  obtain ⟨words, last, -, -, hpieces⟩ := escaped_pieces v
  have hquoted : ∀ p ∈ pieces cutter (escape v ++ ['"']), parseQuotedValue p = none := by
    have hbegins : ∀ w, ¬ ['"'] <+: escape w := by
      rintro w ⟨z, hz⟩
      obtain ⟨a, ha⟩ := quote_of_escape (a := []) hz.symm
      simp at ha
    intro p hp
    rw [hpieces] at hp
    rcases List.mem_append.mp hp with hp | hp
    · obtain ⟨w, -, rfl⟩ := List.mem_map.mp hp
      exact parseQuotedValue_of_not_quoted (hbegins w)
    · rw [List.mem_singleton.mp hp]
      cases hlast : escape last with
      | nil => rfl
      | cons c cs =>
          refine parseQuotedValue_of_not_quoted ?_
          rintro ⟨z, hz⟩
          refine hbegins last ⟨cs, ?_⟩
          rw [hlast, ← (List.cons.inj hz).1]
          rfl
  have hsegments : segments (escape v ++ ['"']) = pieces cutter (escape v ++ ['"']) := by
    refine segments_of_free fun p hp => Plain.freeSegment ⟨?_, hquoted p hp⟩
    exact Option.map_eq_none_iff.mp (List.filterMap_eq_nil_iff.mp h p hp)
  exact ⟨joinBy ' ' (words ++ [last]), by rw [hsegments, hpieces, joinBy_escape]⟩

/-- A token that closes an open quote, where what is left is free text that ends with what
    was in front: its field stood there with an open quote. -/
theorem echo_of_token {p u rest : Text} {t : Filter} {before : List Text} (hne : p ≠ [])
    (hends : trimEnd p = p) (hopen : ¬ Closed cutter p) (hfree : parseToken p = none)
    (ht : GoodField t.field) (hsign : t.negated = false)
    (htake : takePiece cutter ⟨false, false⟩ (escape t.value ++ ['"']) = (u, rest))
    (hmerged : filterOf (p ++ (opening t ++ u)) = some t)
    (hread : (pieces cutter rest).filterMap filterOf = [])
    (hrest : trim (joinBy ' ' (before ++ segments rest)) = trim (joinBy ' ' (before ++ [p]))) :
    p = t.field ++ [':', '"'] ∧ t.value = ' ' :: (t.field ++ [':']) := by
  obtain ⟨name, w, hlower, rfl, hvalue, rfl⟩ := merged_token hopen hfree ht hsign htake hmerged
  obtain ⟨v, hjoin⟩ := segments_escaped hread
  have hsegments : segments (escape t.value ++ ['"']) ≠ [] := by
    intro hnil
    rw [hnil] at hjoin
    simp [joinBy] at hjoin
  rw [joinBy_append _ _ hsegments, joinBy_concat, hjoin, lead_text, lead_text _ (name ++ _)]
    at hrest
  have hlast : trimEnd (escape v ++ ['"']) = escape v ++ ['"'] :=
    List.rdropWhile_concat_neg _ _ _ (by decide)
  obtain ⟨s, hs⟩ := suffix_of_trim (by simp) hlast hne hends hrest
  have hstart : trimStart (name ++ ':' :: '"' :: w) = name ++ ':' :: '"' :: w := by
    by_contra hspace
    have hgood : isField (toLowerCase name) = true := by
      rw [hlower]
      exact ht.isField
    cases name with
    | nil => cases hgood
    | cons c name =>
        exact hspace (List.dropWhile_cons_of_neg (by
          simp [(mem_name hgood c (List.mem_cons_self ..)).1]))
  rw [hstart] at hs
  -- the quote is the last character that is left
  obtain rfl : w = [] := by
    rcases List.eq_nil_or_concat w with rfl | ⟨w, c, rfl⟩
    · rfl
    · have hsplit : s ++ (name ++ ':' :: '"' :: w.concat c)
          = ((s ++ name ++ [':']) ++ '"' :: w) ++ [c] := by simp
      rw [hsplit] at hs
      obtain ⟨a, ha⟩ := quote_of_escape (List.append_inj_left' hs rfl)
      cases (List.cons.inj (List.append_inj_right' ha rfl)).1
  have hvalue' : t.value = ' ' :: (t.field ++ [':']) := by
    rw [List.nil_append, opening, quotedRest_inner (inner_field ht)] at hvalue
    have hvalue := Option.some.inj hvalue
    rw [← hvalue]
    exact List.append_nil _
  -- and what is left is the field with that quote
  have hleft : pieces cutter (escape t.value ++ ['"']) = [t.field ++ [':', '"']] := by
    rw [hvalue', escape_inner (inner_field ht), List.cons_append, pieces_blank isWhitespace_blank,
      List.append_assoc]
    exact pieces_quote ht
  have hname : t.field = s ++ name := by
    rw [segments_eq, hleft, List.filterMap_cons_some (plain_quote ht).freeSegment] at hjoin
    have hcut : t.field ++ [':', '"'] = (s ++ name) ++ [':', '"'] := by
      rw [List.append_assoc]
      exact hjoin.trans hs
    exact List.append_cancel_right hcut
  have hlength := congrArg List.length hname
  rw [← hlower, toLowerCase, List.length_map, List.length_append] at hlength
  have hs : s = [] := List.length_eq_zero_iff.mp (by omega)
  rw [hs, List.nil_append] at hname
  rw [← hname]
  exact ⟨rfl, hvalue'⟩

-- ── a token added ─────────────────────────────────────────────────────────────

/-- The first of the pieces that a token makes with one that is not over: it goes on with
    more than white space, and if it is not the only one, as far as the quote in front of the
    value. -/
theorem merged_cases {p : Text} {t : Filter} (hp : Whole cutter p) (hopen : ¬ Closed cutter p)
    (ht : GoodField t.field) (hsign : t.negated = false) :
    ∃ more tail after, pieces cutter (p ++ ' ' :: formatToken t) = (p ++ (more ++ tail)) :: after
      ∧ more ≠ [] ∧ trimEnd more = more
      ∧ (after = [] ∨ more = opening t ∧ ∃ rest, after = pieces cutter rest
        ∧ takePiece cutter ⟨false, false⟩ (escape t.value ++ ['"']) = (tail, rest)) := by
  rcases open_pieces hp hopen ht hsign with hpieces | ⟨u, rest, htake, hpieces⟩
  · refine ⟨' ' :: formatToken t, [], [], ?_, List.cons_ne_nil _ _, ?_, Or.inl rfl⟩
    · rw [List.append_nil, hpieces]
    · have hsolid := solid_format ht
      rw [trimEnd_blank, hsolid.ends, if_neg hsolid.ne_nil]
  · refine ⟨opening t, u, pieces cutter rest, hpieces, by simp [opening], ?_,
      Or.inr ⟨rfl, rest, rfl, htake⟩⟩
    exact List.rdropWhile_concat_neg _ _ _ (by decide)

/-- One segment less. -/
theorem text_shorter {p : Text} (hne : p ≠ []) (hends : trimEnd p = p) (before : List Text) :
    (trim (joinBy ' ' before)).length < (trim (joinBy ' ' (before ++ [p]))).length := by
  have hlt := length_trim_lt_append (lead ' ' before []) hne hends []
  rwa [List.append_nil, trim_lead, ← lead_text, ← joinBy_concat] at hlt

/-- A segment that goes on with more than white space. -/
theorem text_longer {p more : Text} (hne : p ≠ []) (hends : trimEnd p = p) (hmore : more ≠ [])
    (hmoreEnds : trimEnd more = more) (tail : Text) (before after : List Text) :
    (trim (joinBy ' ' before)).length
        < (trim (joinBy ' ' (before ++ (p ++ (more ++ tail)) :: after))).length
      ∧ (trim (joinBy ' ' (before ++ [p]))).length
        < (trim (joinBy ' ' (before ++ (p ++ (more ++ tail)) :: after))).length := by
  obtain ⟨behind, hmiddle⟩ := joinBy_middle before after
  rw [hmiddle, joinBy_concat, lead_text _ p, ← trim_lead]
  constructor
  · have hlt := length_trim_lt_append (lead ' ' before []) hne hends
      (more ++ (tail ++ behind))
    rwa [← List.append_assoc more, ← List.append_assoc p] at hlt
  · have hlt := length_trim_lt_append (lead ' ' before [] ++ p) hmore hmoreEnds
      (tail ++ behind)
    rwa [List.append_assoc, ← List.append_assoc more, ← List.append_assoc p] at hlt

/-- A token behind a piece that is not over is read, and the rest as it was, only if it
    closes the quote of its own field and leaves it open again. -/
theorem echo_of_reads {init : List Text} {p : Text} {t : Filter} (hp : Whole cutter p)
    (hends : trimEnd p = p) (hopen : ¬ Closed cutter p) (ht : GoodField t.field)
    (hsign : t.negated = false)
    (hfilters : (init ++ pieces cutter (p ++ ' ' :: formatToken t)).filterMap filterOf
      = (init ++ [p]).filterMap filterOf ++ [t])
    (hfree : trim (joinBy ' ' ((init ++ pieces cutter (p ++ ' ' :: formatToken t)).filterMap
        freeSegment))
      = trim (joinBy ' ' ((init ++ [p]).filterMap freeSegment))) :
    p = t.field ++ [':', '"'] ∧ t.value = ' ' :: (t.field ++ [':']) := by
  obtain ⟨more, tail, after, hpieces, hmore, hmoreEnds, hafter⟩ := merged_cases hp hopen ht hsign
  have hquoted : parseQuotedValue p = none := by
    cases h : parseQuotedValue p with
    | none => rfl
    | some d => exact absurd (closed_of_quoted h) hopen
  have hnone : ∀ {z}, filterOf z = none → parseToken z = none := Option.map_eq_none_iff.mp
  rw [hpieces, List.filterMap_append, List.filterMap_append, filterMap_cons_toList,
    filterMap_cons_toList, List.append_assoc] at hfilters
  have hfilters := List.append_cancel_left hfilters
  rw [hpieces, List.filterMap_append, List.filterMap_append] at hfree
  obtain ⟨hlonger, hlonger'⟩ := text_longer hp.1 hends hmore hmoreEnds tail
    (init.filterMap freeSegment) (after.filterMap freeSegment)
  cases hmerged : filterOf (p ++ (more ++ tail)) with
  | none =>
      rw [hmerged] at hfilters
      have hmergedNone := hnone hmerged
      cases hquote : parseQuotedValue (p ++ (more ++ tail)) with
      | none =>
          -- free text that goes on
          rw [List.filterMap_cons_some (Plain.freeSegment ⟨hmergedNone, hquote⟩)] at hfree
          cases htoken : parseToken p with
          | none =>
              rw [List.filterMap_cons_some (Plain.freeSegment ⟨htoken, hquoted⟩),
                List.filterMap_nil] at hfree
              rw [hfree] at hlonger'
              exact absurd hlonger' (lt_irrefl _)
          | some token =>
              have hsome : parseToken p ≠ none := by simp [htoken]
              rw [List.filterMap_cons_none (segment_of_token hsome), List.filterMap_nil,
                List.append_nil] at hfree
              rw [hfree] at hlonger
              exact absurd hlonger (lt_irrefl _)
      | some d =>
          -- quotes that are closed, and no token behind them has a blank in its value
          have hmem : t ∈ after.filterMap filterOf := by
            have hnil : (none : Option Filter).toList ++ after.filterMap filterOf
                = after.filterMap filterOf := List.nil_append _
            rw [← hnil, hfilters]
            simp
          rcases hafter with rfl | ⟨rfl, rest, rfl, htake⟩
          · exact absurd hmem List.not_mem_nil
          · obtain ⟨c, cs, rfl⟩ := List.exists_cons_of_ne_nil hp.1
            obtain ⟨⟨z, hz⟩, -⟩ := limits_of_quoted hquote
            obtain rfl : c = '"' := (List.cons.inj hz).1
            obtain ⟨rfl, -⟩ := quotes_end (w := cs) ht hquote
            obtain ⟨rfl, c, hc, hblank⟩ := blank_of_take htake
            rw [no_blank_read hmem c hc] at hblank
            cases hblank
  | some m =>
      rw [hmerged] at hfilters
      have hmergedSome : parseToken (p ++ (more ++ tail)) ≠ none := by
        intro h
        rw [filterOf, h] at hmerged
        cases hmerged
      rw [List.filterMap_cons_none (segment_of_token hmergedSome)] at hfree
      cases htoken : filterOf p with
      | some t' =>
          -- a token that goes on
          rw [htoken] at hfilters
          rw [(List.cons.inj hfilters).1] at hmerged
          exact absurd (token_grows htoken hmerged) (by simp [hmore])
      | none =>
          rw [htoken] at hfilters
          obtain ⟨rfl, hread⟩ := List.cons.inj hfilters
          rw [List.filterMap_cons_some (Plain.freeSegment ⟨hnone htoken, hquoted⟩),
            List.filterMap_nil] at hfree
          rcases hafter with rfl | ⟨rfl, rest, rfl, htake⟩
          · -- less free text
            have hshorter := text_shorter hp.1 hends (init.filterMap freeSegment)
            rw [List.filterMap_nil, List.append_nil] at hfree
            rw [hfree] at hshorter
            exact absurd hshorter (lt_irrefl _)
          · rw [← segments_eq] at hfree
            exact echo_of_token hp.1 hends hopen (hnone htoken) ht hsign htake hmerged hread hfree

/-- And so it is there. -/
theorem reads_of_echo (init : List Text) {t : Filter} (ht : GoodField t.field)
    (hsign : t.negated = false) (hvalue : t.value = ' ' :: (t.field ++ [':'])) :
    (init ++ pieces cutter (t.field ++ [':', '"'] ++ ' ' :: formatToken t)).filterMap filterOf
        = (init ++ [t.field ++ [':', '"']]).filterMap filterOf ++ [t]
      ∧ (init ++ pieces cutter (t.field ++ [':', '"'] ++ ' ' :: formatToken t)).filterMap
          freeSegment
        = (init ++ [t.field ++ [':', '"']]).filterMap freeSegment := by
  have hquotes : needsQuotes t.value = true := by
    rw [hvalue]
    rfl
  have hslashed : ¬ Slashed t.value := fun h => by
    rw [Slashed, hquotes] at h
    cases h.1
  -- the token is what is open twice
  have hformat : formatToken t = t.field ++ [':', '"'] ++ ' ' :: (t.field ++ [':', '"']) := by
    rw [formatToken_eq, hsign, serializeValue, if_pos hquotes, hvalue,
      escape_inner (inner_field ht)]
    simp [sign]
  have hsplit : t.field ++ [':', '"'] ++ ' ' :: formatToken t
      = formatToken t ++ ' ' :: (t.field ++ [':', '"']) := by
    rw [hformat]
    simp
  have hrun := run_format ht
  rw [dangles, hquotes] at hrun
  have hpieces : pieces cutter (t.field ++ [':', '"'] ++ ' ' :: formatToken t)
      = [formatToken t, t.field ++ [':', '"']] := by
    rw [hsplit, pieces_closed ⟨(solid_format ht).ne_nil, hrun⟩ isWhitespace_blank, pieces_quote ht]
  obtain ⟨hfilter, htoken⟩ := filterOf_format ht hslashed
  have hnone : filterOf (t.field ++ [':', '"']) = none := by
    rw [filterOf, (plain_quote ht).1]
    rfl
  rw [hpieces]
  constructor
  · rw [List.filterMap_append, List.filterMap_append, List.filterMap_cons_some hfilter,
      List.filterMap_cons_none hnone, List.filterMap_nil, List.append_nil]
  · rw [List.filterMap_append, List.filterMap_append,
      List.filterMap_cons_none (segment_of_token htoken)]

theorem reads_iff {x : Text} {ts : List Filter} {freeText : Text} :
    Reads x ts freeText ↔ (pieces cutter x).filterMap filterOf = ts
      ∧ trim (joinBy ' ' ((pieces cutter x).filterMap freeSegment)) = freeText := by
  rw [← text_eq, ← filters_eq]
  exact ⟨fun h => ⟨h.filters, h.freeText⟩, fun h => ⟨h.1, h.2⟩⟩

/-- The last piece of a trimmed search ends where the search does. -/
theorem last_of_trimmed {x : Text} (hne : x ≠ []) (hends : trimEnd x = x) :
    ∃ init p, Whole cutter p ∧ trimEnd p = p ∧ pieces cutter x = init ++ [p]
      ∧ ∀ y, pieces cutter (x ++ y) = init ++ pieces cutter (p ++ y) := by
  have hspace : ∀ {s : Text}, (∀ c ∈ s, cutter.blank c = true) → ∀ c ∈ s, isSpace c = true :=
    fun hs c hc => isSpace_of_isWhitespace (hs c hc)
  rcases last_piece (k := cutter) x with hall
    | ⟨front, p, blanks, init, hx, hblanks, hp, hpieces, hrest⟩
  · have hnil : trimEnd x = [] := List.rdropWhile_eq_nil_iff.mpr (hspace hall)
    exact absurd (hends.symm.trans hnil) hne
  · have hnil : blanks = [] := by
      rw [hx, ← List.append_assoc, trimEnd_append_space (hspace hblanks)] at hends
      have hlength := congrArg List.length hends
      have hle := length_trimEnd_le (front ++ p)
      simp only [List.length_append] at hlength hle
      exact List.length_eq_zero_iff.mp (by omega)
    subst hnil
    rw [List.append_nil] at hx
    refine ⟨init, p, hp, ?_, hpieces, hrest⟩
    rw [hx, trimEnd_append] at hends
    split at hends
    · have hlength := congrArg List.length hends
      have hle := length_trimEnd_le front
      have hpos := List.length_pos_iff.mpr hp.1
      rw [List.length_append] at hlength
      omega
    · exact List.append_cancel_left hends

/-- A token that is a piece by itself is read as one if it is no part of an address. -/
theorem reads_behind {t : Filter} (ht : GoodField t.field) (ps : List Text) :
    ((ps ++ [formatToken t]).filterMap filterOf = ps.filterMap filterOf ++ [t]
        ∧ trim (joinBy ' ' ((ps ++ [formatToken t]).filterMap freeSegment))
          = trim (joinBy ' ' (ps.filterMap freeSegment)))
      ↔ ¬ Slashed t.value := by
  rw [List.filterMap_append, List.filterMap_append]
  constructor
  · rintro ⟨hfilters, -⟩ hslashed
    rw [List.filterMap_cons_none (filterOf_slashed ht hslashed)] at hfilters
    exact nomatch List.append_cancel_left hfilters
  · intro hslashed
    obtain ⟨hfilter, htoken⟩ := filterOf_format ht hslashed
    rw [List.filterMap_cons_some hfilter, List.filterMap_cons_none (segment_of_token htoken),
      List.filterMap_nil, List.filterMap_nil, List.append_nil]
    exact ⟨rfl, rfl⟩

/-- **A TOKEN ADDED**: behind a search that is over where it ends, a token that is no part
    of an address is read as one and leaves the rest as it was; otherwise only one does. -/
theorem appended_iff {x : Text} {t : Filter} (hne : x ≠ []) (hends : trimEnd x = x)
    (ht : GoodField t.field) (hsign : t.negated = false) :
    Reads (x ++ ' ' :: formatToken t) (filters x ++ [t]) (parseSearch x).freeText
      ↔ Over x ∧ ¬ Slashed t.value ∨ Echo x t := by
  obtain ⟨init, p, hp, hpends, hpieces, hrest⟩ := last_of_trimmed hne hends
  have hlast : (pieces cutter x).getLast? = some p := by rw [hpieces, List.getLast?_concat]
  have hover : Over x ↔ Closed cutter p := by simp [Over, hlast]
  have hecho : Echo x t ↔ p = t.field ++ [':', '"'] ∧ t.value = ' ' :: (t.field ++ [':']) := by
    rw [Echo, hlast, Option.some_inj]
  rw [reads_iff, hrest, filters, filters_eq, text_eq, hpieces, hover, hecho]
  by_cases hclosed : Closed cutter p
  · have htoken : pieces cutter (p ++ ' ' :: formatToken t) = [p, formatToken t] := by
      rw [pieces_closed hclosed isWhitespace_blank,
        pieces_whole ⟨(solid_format ht).ne_nil, _, run_format ht⟩]
    have hnot : ¬ (p = t.field ++ [':', '"'] ∧ t.value = ' ' :: (t.field ++ [':'])) := by
      rintro ⟨rfl, -⟩
      cases (run_quote ht).symm.trans hclosed.2
    have hsplit : init ++ [p, formatToken t] = (init ++ [p]) ++ [formatToken t] := by simp
    rw [htoken, hsplit, reads_behind ht]
    exact ⟨fun h => Or.inl ⟨hclosed, h⟩, fun h => (h.resolve_right hnot).2⟩
  · constructor
    · rintro ⟨hfilters, hfree⟩
      exact Or.inr (echo_of_reads hp hpends hclosed ht hsign hfilters hfree)
    · rintro (⟨hclosed', -⟩ | ⟨rfl, hvalue⟩)
      · exact absurd hclosed' hclosed
      · obtain ⟨hfilters, hfree⟩ := reads_of_echo init ht hsign hvalue
        exact ⟨hfilters, by rw [hfree]⟩

-- ── the edits ─────────────────────────────────────────────────────────────────

theorem trimEnd_trim (input : Text) : trimEnd (trim input) = trim input := trimEnd_idem _

/-- A token is added to the trimmed search. -/
theorem addToken_iff (input value : Text) {field : Text} (hfield : isField field = true) :
    Reads (addToken input field value)
        (filters (trim input) ++ [⟨toLowerCase field, value, false⟩])
        (parseSearch (trim input)).freeText
      ↔ Over (trim input) ∧ ¬ Slashed value
        ∨ Echo (trim input) ⟨toLowerCase field, value, false⟩ := by
  have ht : GoodField (toLowerCase field) := goodField_toLowerCase (isField_toLowerCase hfield)
  rw [addToken]
  by_cases hnil : trim input = []
  · have hover : Over [] := by
      intro p hp
      rw [pieces_nil] at hp
      exact nomatch hp
    have hecho : ¬ Echo [] ⟨toLowerCase field, value, false⟩ := by
      rintro ⟨hlast, -⟩
      rw [pieces_nil] at hlast
      exact nomatch hlast
    have hone := reads_behind (t := ⟨toLowerCase field, value, false⟩) ht []
    rw [if_pos hnil, hnil, reads_iff, filters, filters_eq, text_eq,
      pieces_whole ⟨(solid_format ht).ne_nil, _, run_format ht⟩, pieces_nil]
    rw [List.nil_append] at hone
    rw [hone]
    exact ⟨fun h => Or.inl ⟨hover, h⟩, fun h => (h.resolve_right hecho).2⟩
  · rw [if_neg hnil]
    exact appended_iff hnil (trimEnd_trim input) ht rfl

/-- What is left of a search without a token is printed. -/
theorem removeToken_found {input raw : Text}
    (h : ∃ token ∈ (parseSearch input).tokens, token.raw = raw) :
    removeToken input raw = buildSearch (withoutFirst input raw) (parseSearch input).freeText := by
  obtain ⟨token, hmem, hraw⟩ := h
  rw [removeToken, withoutFirst, List.eraseP_eq_eraseIdx]
  cases hfind : (parseSearch input).tokens.findIdx? (fun token => token.raw == raw) with
  | none =>
      have hnot := List.findIdx?_eq_none_iff.mp hfind token hmem
      rw [hraw, beq_self_eq_true] at hnot
      exact nomatch hnot
  | some tokenIndex => rfl

theorem removeToken_missing {input raw : Text}
    (h : ∀ token ∈ (parseSearch input).tokens, token.raw ≠ raw) :
    removeToken input raw = trim input ∧ withoutFirst input raw = filters input := by
  have hfind : (parseSearch input).tokens.findIdx? (fun token => token.raw == raw) = none :=
    List.findIdx?_eq_none_iff.mpr fun token hmem => beq_eq_false_iff_ne.mpr (h token hmem)
  rw [removeToken, withoutFirst, List.eraseP_eq_eraseIdx]
  rw [hfind]
  exact ⟨rfl, rfl⟩

theorem replaceAllTokens_eq (input field value : Text) :
    replaceAllTokens input field value
      = buildSearch (replaced input field value) (parseSearch input).freeText := by
  rw [replaceAllTokens, replaced, filters, others, List.filter_map]
  rfl

/-- What is printed of tokens and the search's free text is read so if it is stable. -/
theorem printed_iff {input : Text} {ts : List Filter} (hts : ∀ t ∈ ts, GoodField t.field) :
    Reads (buildSearch ts (parseSearch input).freeText) ts (parseSearch input).freeText
      ↔ Stable ts (parseSearch input).freeText := by
  rw [← readsAgain_iff hts (trim_freeText input)]
  constructor
  · rintro ⟨hfilters, hfree⟩
    rw [filters, filters_eq] at hfilters
    exact ⟨hfilters, hfree⟩
  · intro h
    obtain ⟨hfilters, hfree⟩ := readsAgain_same h
    exact ⟨hfilters, hfree⟩

/-- **WHAT AN EDIT KEEPS**: a token is added to a search that loses nothing when it is
    trimmed, where the search is over and the token is no part of an address, or where the
    token is the one that a quote is open for; one that is not there is removed from such a
    search; and what is left of the search without a token, or without those of a field, is
    read as it is where it is stable. -/
theorem obeys_iff (input : Text) :
    (∀ field value, isField field = true →
        (Flush input → (Adds input field value
          ↔ Over (trim input) ∧ ¬ Slashed value
            ∨ Echo (trim input) ⟨toLowerCase field, value, false⟩))
        ∧ (Over (trim input) ∧ ¬ Slashed value → FlushStart input ∨ FlushEnd (trimStart input) →
          (Adds input field value ↔ Flush input)))
      ∧ (∀ raw, (∃ token ∈ (parseSearch input).tokens, token.raw = raw) →
        (Removes input raw ↔ Stable (withoutFirst input raw) (parseSearch input).freeText))
      ∧ (∀ raw, (∀ token ∈ (parseSearch input).tokens, token.raw ≠ raw) →
        (Flush input → Removes input raw)
        ∧ (FlushStart input ∨ FlushEnd (trimStart input) → (Removes input raw ↔ Flush input)))
      ∧ (∀ field value, isField field = true →
        (Replaces input field value
          ↔ Stable (replaced input field value) (parseSearch input).freeText)) := by
  obtain ⟨hflush, hends⟩ := same_trim_iff input
  refine ⟨fun field value hfield => ⟨fun hinput => ?_, fun hadded hone => ?_⟩, fun raw hfound => ?_,
    fun raw hmissing => ?_, fun field value hfield => ?_⟩
  · have hsame := hflush hinput
    rw [Adds, ← hsame.filters, ← hsame.freeText]
    exact addToken_iff input value hfield
  · have hreads := (addToken_iff input value hfield).mpr (Or.inl hadded)
    rw [← hends hone, Adds]
    constructor
    · intro h
      exact ⟨List.append_cancel_right (hreads.filters.symm.trans h.filters),
        hreads.freeText.symm.trans h.freeText⟩
    · intro hsame
      rw [← hsame.filters, ← hsame.freeText]
      exact hreads
  · rw [Removes, removeToken_found hfound]
    refine printed_iff fun t ht => ?_
    obtain ⟨token, hmem, rfl⟩ := List.mem_map.mp ht
    have hinput : token.toFilter ∈ filters input :=
      List.mem_map_of_mem (List.mem_of_mem_eraseP hmem)
    exact goodField_of_mem hinput
  · obtain ⟨hremove, hleft⟩ := removeToken_missing hmissing
    have hsame : Removes input raw ↔ Same (trim input) input := by
      rw [Removes, hremove, hleft]
      exact ⟨fun h => ⟨h.filters, h.freeText⟩, fun h => ⟨h.filters, h.freeText⟩⟩
    rw [hsame]
    exact ⟨hflush, hends⟩
  · rw [Replaces, replaceAllTokens_eq]
    refine printed_iff fun t ht => ?_
    rcases List.mem_append.mp ht with ht | ht
    · exact goodField_of_mem (List.mem_filter.mp ht).1
    · rw [List.mem_singleton.mp ht]
      exact goodField_toLowerCase (isField_toLowerCase hfield)

-- ── a quote that is open ──────────────────────────────────────────────────────

theorem trim_quote : trim "\"a".toList = "\"a".toList := by decide

theorem pieces_open_quote : pieces cutter "\"a".toList = ["\"a".toList] :=
  pieces_whole ⟨by decide, ⟨true, false⟩, by decide⟩

/-- A token behind a quote that is open is part of the free text. -/
theorem token_in_quotes : ¬ Adds "\"a".toList "level".toList "error".toList := by
  intro h
  have hfield : isField "level".toList = true := by decide
  have hread := addToken_iff "\"a".toList "error".toList hfield
  rw [trim_quote] at hread
  rcases hread.mp h with ⟨hover, -⟩ | ⟨-, hvalue⟩
  · rw [Over, pieces_open_quote] at hover
    exact absurd (hover _ rfl).2 (by decide)
  · exact absurd hvalue (by decide)

/-- And behind a word a token of its own. -/
theorem token_behind_word : Adds "a".toList "level".toList "error".toList := by
  have htrim : trim "a".toList = "a".toList := by decide
  have hstart : trimStart "a".toList = "a".toList := by decide
  have hpieces : pieces cutter "a".toList = ["a".toList] :=
    pieces_whole ⟨by decide, ⟨false, false⟩, by decide⟩
  have hflush : Flush "a".toList := by
    constructor
    · rw [FlushStart, hpieces]
      exact fun p hp => Or.inl (by rw [← Option.some.inj hp, hstart])
    · rw [hstart, FlushEnd, hpieces]
      exact fun p hp => Or.inl (by rw [← Option.some.inj hp]; decide)
  have hover : Over (trim "a".toList) := by
    rw [htrim, Over, hpieces]
    exact fun p hp => by
      rw [← Option.some.inj hp]
      exact ⟨by decide, by decide⟩
  refine (((obeys_iff "a".toList).1 _ _ (by decide)).1 hflush).mpr (Or.inl ⟨hover, ?_⟩)
  rintro ⟨-, hslashes⟩
  exact absurd hslashes (by decide)

end DevstackTokenEdits
