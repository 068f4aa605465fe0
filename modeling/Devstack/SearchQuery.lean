import Devstack.SearchParser

/-! # Search query — the search string as the server's query

    `simpleTantivyQuery` of `src/components/log-viewer.tsx` in the dashboard.  Stored
    lines are searched with the query that it builds from the search string, live lines
    are filtered by what `parseSearch` makes of the same string.

    The query cuts the string at every white space, knows no quotes, and takes other
    names for fields.  `query_agrees_iff`: the two make the same of a string exactly when its
    pieces are `Alike`, that is hold no white space, name their fields in small letters,
    digits and underscores, and are not free text in quotes or behind such a name. -/

namespace DevstackSearchQuery

open DevstackSplitting DevstackSearchParser

-- ── log-viewer.tsx ────────────────────────────────────────────────────────────

def escapeTantivyPhrase (s : Text) : Text := '"' :: (escape s ++ ['"'])

/-- `split(/\s+/)` without the empty parts: the parts between white space. -/
def spaces : Splitter Char Unit where
  start := ()
  next := fun _ _ => ()
  blank := isSpace

/-- `/^[a-z0-9_]+$/`. -/
def isClauseField (field : Text) : Bool :=
  !field.isEmpty && field.all (fun c => c.isLower || c.isDigit || c == '_')

/-- `/^[A-Za-z0-9_]+$/`. -/
def isWord (t : Text) : Bool := !t.isEmpty && t.all (fun c => c.isAlphanum || c == '_')

/-- A clause of the query: a field with what stands behind its colon, a phrase, a word. -/
inductive Clause where
  | field (negated : Bool) (name rest : Text)
  | phrase (term : Text)
  | word (term : Text)
  deriving DecidableEq

/-- What `simpleTantivyQuery` makes of a term. -/
def clauseOf (t : Text) : Clause :=
  let neg := ['-'].isPrefixOf t
  let raw := if neg then t.tail else t
  let name := raw.takeWhile (· ≠ ':')
  match raw.dropWhile (· ≠ ':') with
  | _ :: rest =>
      if name = [] then if isWord t then .word t else .phrase t
      else if isClauseField (toLowerCase name) && !(['/', '/'].isPrefixOf rest) then
        .field neg name rest
      else .phrase t
  | [] => if isWord t then .word t else .phrase t

/-- How a clause stands in the query. -/
def Clause.print : Clause → Text
  | .field neg name rest => sign neg ++ (name ++ ':' :: rest)
  | .phrase term => escapeTantivyPhrase term
  | .word term => term

def clauses (input : Text) : List Clause := (pieces spaces (trim input)).map clauseOf

def simpleTantivyQuery (input : Text) : Text :=
  List.intercalate " AND ".toList ((clauses input).map Clause.print)

-- ── what a query and a parse agree on ─────────────────────────────────────────

/-- What a clause asks of a field; a value in quotes is what the quotes hold. -/
def Clause.filter? : Clause → Option Filter
  | .field neg name rest => some ⟨name, (normalizeTokenValue rest).getD rest, neg⟩
  | .phrase _ => none
  | .word _ => none

/-- The free text that a clause asks for. -/
def Clause.term? : Clause → Option Text
  | .field .. => none
  | .phrase term => some term
  | .word term => some term

/-- The clauses on fields are the tokens, and the others the segments of free text. -/
structure Agrees (input : Text) : Prop where
  filters : (clauses input).filterMap Clause.filter?
    = (parseSearch input).tokens.map (·.toFilter)
  terms : (clauses input).filterMap Clause.term? = segments input

/-- A piece of the search that both read alike. -/
structure Alike (p : Text) : Prop where
  noSpace : ∀ c ∈ p, isSpace c = false
  token : ∀ t, parseToken p = some t → isClauseField t.field = true
    ∧ ∃ rest, p = sign t.negated ++ (t.field ++ ':' :: rest)
  text : parseToken p = none → parseQuotedValue p = none
    ∧ ∀ negated name rest, p = sign negated ++ (name ++ ':' :: rest) →
      isClauseField (toLowerCase name) = true → ['/', '/'] <+: rest

-- ── clauses ───────────────────────────────────────────────────────────────────

theorem not_sign_of_isClauseField {name : Text} (h : isClauseField (toLowerCase name) = true) :
    ¬ ['-'] <+: name := by
  rintro ⟨rest, rfl⟩
  rw [isClauseField, Bool.and_eq_true] at h
  have hall := List.all_eq_true.mp h.2 '-' (by simp [toLowerCase])
  exact absurd hall (by decide)

/-- A term is a clause on a field when a sign, a name and a colon stand in front. -/
theorem clauseOf_field {negated : Bool} {name rest : Text} (hname : ∀ c ∈ name, c ≠ ':')
    (hfield : isClauseField (toLowerCase name) = true) (hrest : ¬ ['/', '/'] <+: rest) :
    clauseOf (sign negated ++ (name ++ ':' :: rest)) = .field negated name rest := by
  have hne : name ≠ [] := by
    rintro rfl
    exact nomatch hfield
  have hslashes : ['/', '/'].isPrefixOf rest = false := by
    rw [Bool.eq_false_iff]
    exact fun h => hrest (List.isPrefixOf_iff_prefix.mp h)
  rw [clauseOf]
  simp only [sign_eq (not_sign_of_isClauseField hfield), body_eq, dropWhile_colon hname,
    takeWhile_colon hname, hfield, hslashes, hne, if_false]
  rfl

/-- Every other term is itself a phrase or a word. -/
theorem clauseOf_cases (t : Text) :
    (∃ negated name rest, clauseOf t = .field negated name rest
        ∧ t = sign negated ++ (name ++ ':' :: rest) ∧ (∀ c ∈ name, c ≠ ':')
        ∧ isClauseField (toLowerCase name) = true ∧ ¬ ['/', '/'] <+: rest)
      ∨ (clauseOf t).filter? = none ∧ (clauseOf t).term? = some t := by
  have hraw := sign_append_body t
  rw [clauseOf]
  generalize ['-'].isPrefixOf t = negated at hraw
  generalize (if negated = true then t.tail else t) = body at hraw
  split
  · next colon rest hdrop =>
      obtain ⟨hbody, hname⟩ := eq_of_dropWhile_colon hdrop
      split
      · refine Or.inr ?_
        split
        · exact ⟨rfl, rfl⟩
        · exact ⟨rfl, rfl⟩
      · split
        · next hfield =>
            rw [Bool.and_eq_true, Bool.not_eq_true'] at hfield
            refine Or.inl ⟨negated, _, rest, rfl, ?_, hname, hfield.1, ?_⟩
            · rw [← hbody]
              exact hraw
            · intro hslashes
              rw [List.isPrefixOf_iff_prefix.mpr hslashes] at hfield
              exact nomatch hfield.2
        · exact Or.inr ⟨rfl, rfl⟩
  · refine Or.inr ?_
    split
    · exact ⟨rfl, rfl⟩
    · exact ⟨rfl, rfl⟩

-- ── white space in what is read ───────────────────────────────────────────────

theorem mem_of_quotedRest {escaped : Bool} {cs d : Text} (h : quotedRest escaped cs = some d) :
    ∀ c ∈ d, c ∈ cs := by
  induction cs generalizing escaped d with
  | nil => cases escaped <;> cases h
  | cons b cs ih =>
      have hmap : ∀ {d : Text}, (quotedRest false cs).map (b :: ·) = some d → ∀ c ∈ d, c ∈ b :: cs := by
        intro d hd c hc
        obtain ⟨d', hd', rfl⟩ := Option.map_eq_some_iff.mp hd
        rcases List.mem_cons.mp hc with rfl | hc
        · exact List.mem_cons_self ..
        · exact List.mem_cons_of_mem _ (ih hd' c hc)
      cases escaped with
      | true => exact hmap h
      | false =>
          rw [quotedRest] at h
          split at h
          · exact fun c hc => List.mem_cons_of_mem _ (ih h c hc)
          · split at h
            · split at h
              · rw [← Option.some.inj h]
                exact fun c hc => absurd hc List.not_mem_nil
              · cases h
            · exact hmap h

/-- White space within quotes is part of what they hold. -/
theorem space_of_quotedRest {escaped : Bool} {cs d : Text} (h : quotedRest escaped cs = some d)
    {c : Char} (hc : c ∈ cs) (hspace : isSpace c = true) : c ∈ d := by
  induction cs generalizing escaped d with
  | nil => exact absurd hc List.not_mem_nil
  | cons b cs ih =>
      have hmap : ∀ {d : Text}, (quotedRest false cs).map (b :: ·) = some d → c ∈ d := by
        intro d hd
        obtain ⟨d', hd', rfl⟩ := Option.map_eq_some_iff.mp hd
        rcases List.mem_cons.mp hc with rfl | hc
        · exact List.mem_cons_self ..
        · exact List.mem_cons_of_mem _ (ih hd' hc)
      cases escaped with
      | true => exact hmap h
      | false =>
          rw [quotedRest] at h
          split at h
          · next hslash =>
              rcases List.mem_cons.mp hc with rfl | hc
              · rw [hslash] at hspace
                cases hspace
              · exact ih h hc
          · split at h
            · next hquote =>
                split at h
                · next hend =>
                    rw [hend] at hc
                    rw [List.mem_singleton.mp hc, hquote] at hspace
                    cases hspace
                · cases h
            · exact hmap h

theorem space_of_parseQuotedValue {raw d : Text} (h : parseQuotedValue raw = some d) {c : Char}
    (hc : c ∈ raw) (hspace : isSpace c = true) : c ∈ d := by
  unfold parseQuotedValue at h
  split at h
  · rcases List.mem_cons.mp hc with rfl | hc
    · exact nomatch hspace
    · exact space_of_quotedRest h hc hspace
  · exact nomatch h

theorem mem_of_parseQuotedValue {raw d : Text} (h : parseQuotedValue raw = some d) :
    ∀ c ∈ d, c ∈ raw := by
  unfold parseQuotedValue at h
  split at h
  · exact fun c hc => List.mem_cons_of_mem _ (mem_of_quotedRest h c hc)
  · exact nomatch h

theorem normalizeTokenValue_cases {raw v : Text} (h : normalizeTokenValue raw = some v) :
    parseQuotedValue raw = some v ∨ v = raw := by
  rw [normalizeTokenValue] at h
  split at h
  · exact Or.inl h
  · split at h
    · cases h
    · exact Or.inr (Option.some.inj h).symm

/-- White space in a token is in its value. -/
theorem space_of_parseToken {p : Text} {t : SearchToken} (h : parseToken p = some t) {c : Char}
    (hc : c ∈ p) (hspace : isSpace c = true) : c ∈ t.value := by
  obtain ⟨hgood, -, name, rawValue, rfl, hlower, -, -, hvalue⟩ := parseToken_some h
  rcases List.mem_append.mp hc with hc | hc
  · cases hneg : t.negated with
    | true =>
        rw [hneg, sign, if_pos rfl] at hc
        rw [List.mem_singleton.mp hc] at hspace
        exact nomatch hspace
    | false =>
        rw [hneg, sign, if_neg Bool.false_ne_true] at hc
        exact absurd hc List.not_mem_nil
  · rcases List.mem_append.mp hc with hc | hc
    · have hmem : c ∈ t.field := by
        rw [← hlower, ← lower_of_space hspace]
        exact List.mem_map_of_mem hc
      exact absurd hspace (by simp [(mem_field hgood.isField c hmem).1])
    · rcases List.mem_cons.mp hc with rfl | hc
      · exact nomatch hspace
      · rcases normalizeTokenValue_cases hvalue with hquoted | hplain
        · exact space_of_parseQuotedValue hquoted hc hspace
        · rwa [hplain]

theorem space_of_segment {p d : Text} (h : freeSegment p = some d) {c : Char} (hc : c ∈ p)
    (hspace : isSpace c = true) : c ∈ d := by
  rw [freeSegment] at h
  split at h
  · cases h
  · rw [← Option.some.inj h, decodeFreeTextSegment]
    cases hquoted : parseQuotedValue p with
    | none => exact hc
    | some d => exact space_of_parseQuotedValue hquoted hc hspace

/-- What a term asks for is in the term. -/
theorem mem_of_clause {t : Text} :
    (∀ f, (clauseOf t).filter? = some f → ∀ c ∈ f.value, c ∈ t)
      ∧ ∀ d, (clauseOf t).term? = some d → d = t := by
  rcases clauseOf_cases t with ⟨negated, name, rest, hclause, ht, -⟩ | ⟨hfilter, hterm⟩
  · rw [hclause]
    refine ⟨?_, fun d hd => nomatch hd⟩
    rintro f ⟨⟩ c hc
    have hrest : c ∈ rest := by
      cases hvalue : normalizeTokenValue rest with
      | none => simpa [hvalue] using hc
      | some v =>
          rw [hvalue] at hc
          rcases normalizeTokenValue_cases hvalue with hquoted | hplain
          · exact mem_of_parseQuotedValue hquoted c hc
          · rwa [← hplain]
    rw [ht]
    simp [hrest]
  · rw [hfilter, hterm]
    exact ⟨fun f hf => (nomatch hf), fun d hd => (Option.some.inj hd).symm⟩

-- ── terms ─────────────────────────────────────────────────────────────────────

theorem pieces_trim (input : Text) : pieces spaces (trim input) = pieces spaces input := by
  have hstart : ∀ cs : Text, pieces spaces (trimStart cs) = pieces spaces cs := by
    intro cs
    induction cs with
    | nil => rfl
    | cons c cs ih =>
        cases hc : isSpace c with
        | true =>
            rw [trimStart, List.dropWhile_cons_of_pos hc, pieces_blank (k := spaces) hc]
            exact ih
        | false => rw [trimStart, List.dropWhile_cons_of_neg (by simp [hc])]
  have hend : ∀ cs : Text, pieces spaces (trimEnd cs) = pieces spaces cs := by
    intro cs
    induction cs using List.reverseRecOn with
    | nil => rfl
    | append_singleton cs c ih =>
        cases hc : isSpace c with
        | true =>
            rw [trimEnd, List.rdropWhile_concat_pos _ _ _ hc, pieces_concat_blank (k := spaces) hc]
            exact ih
        | false => rw [trimEnd, List.rdropWhile_concat_neg _ _ _ (by simp [hc])]
  rw [trim, hend, hstart]

/-- A string whose pieces hold no white space has them as its terms. -/
theorem clauses_eq {input : Text} (h : ∀ p ∈ pieces cutter input, ∀ c ∈ p, isSpace c = false) :
    clauses input = (pieces cutter input).map clauseOf := by
  rw [clauses, pieces_trim,
    pieces_eq_of_no_blank (o := cutter) (k := spaces) (fun _ => isSpace_of_isWhitespace) h]

theorem noSpace_of_agrees {input : Text} (h : Agrees input) :
    ∀ p ∈ pieces cutter input, ∀ c ∈ p, isSpace c = false := by
  obtain ⟨hfilters, hterms⟩ := h
  have hnot : ∀ t ∈ pieces spaces (trim input), ∀ c ∈ t, isSpace c = false := fun t ht =>
    not_blank_of_mem_pieces (k := spaces) ht
  intro p hp c hc
  by_contra hspace
  rw [Bool.not_eq_false] at hspace
  cases htoken : parseToken p with
  | some token =>
      have hmem : token.toFilter ∈ (clauses input).filterMap Clause.filter? := by
        rw [hfilters, filters_eq]
        exact List.mem_filterMap.mpr ⟨p, hp, by rw [filterOf, htoken]; rfl⟩
      obtain ⟨clause, hclause, hfilter⟩ := List.mem_filterMap.mp hmem
      obtain ⟨t, ht, rfl⟩ := List.mem_map.mp hclause
      have hvalue := mem_of_clause.1 _ hfilter c (space_of_parseToken htoken hc hspace)
      exact absurd hspace (by simp [hnot t ht c hvalue])
  | none =>
      have hsegment := segment_of_none htoken
      have hmem : decodeFreeTextSegment p ∈ (clauses input).filterMap Clause.term? := by
        rw [hterms, segments_eq]
        exact List.mem_filterMap.mpr ⟨p, hp, hsegment⟩
      obtain ⟨clause, hclause, hterm⟩ := List.mem_filterMap.mp hmem
      obtain ⟨t, ht, rfl⟩ := List.mem_map.mp hclause
      have hvalue := space_of_segment hsegment hc hspace
      rw [mem_of_clause.2 _ hterm] at hvalue
      exact absurd hspace (by simp [hnot t ht c hvalue])

-- ── piece by piece ────────────────────────────────────────────────────────────

/-- Two readings of a list of which one takes at least what the other takes: if they read
    the same, they read every element alike. -/
theorem eq_of_filterMap_eq {α β : Type} {f g : α → Option β} {ps : List α}
    (hsome : ∀ p ∈ ps, (f p).isSome = true → (g p).isSome = true)
    (h : ps.filterMap f = ps.filterMap g) : ∀ p ∈ ps, f p = g p := by
  have hlength : ∀ {ps : List α}, (∀ p ∈ ps, (f p).isSome = true → (g p).isSome = true) →
      (ps.filterMap f).length ≤ (ps.filterMap g).length := by
    intro ps hsome
    rw [List.length_filterMap_eq_countP, List.length_filterMap_eq_countP]
    exact List.countP_mono_left hsome
  induction ps with
  | nil => exact fun p hp => absurd hp List.not_mem_nil
  | cons p ps ih =>
      have htail : ∀ q ∈ ps, (f q).isSome = true → (g q).isSome = true := fun q hq =>
        hsome q (List.mem_cons_of_mem _ hq)
      have hp := hsome p (List.mem_cons_self ..)
      intro q hq
      cases hf : f p with
      | none =>
          cases hg : g p with
          | none =>
              rw [List.filterMap_cons_none hf, List.filterMap_cons_none hg] at h
              rcases List.mem_cons.mp hq with rfl | hq
              · rw [hf, hg]
              · exact ih htail h q hq
          | some b =>
              rw [List.filterMap_cons_none hf, List.filterMap_cons_some hg] at h
              have hle := hlength htail
              rw [h, List.length_cons] at hle
              omega
      | some a =>
          obtain ⟨b, hg⟩ := Option.isSome_iff_exists.mp (hp (by rw [hf]; rfl))
          rw [List.filterMap_cons_some hf, List.filterMap_cons_some hg, List.cons.injEq] at h
          rcases List.mem_cons.mp hq with rfl | hq
          · rw [hf, hg, h.1]
          · exact ih htail h.2 q hq

/-- A clause asks for a field or for text. -/
theorem clause_isSome (clause : Clause) :
    clause.term?.isSome = !clause.filter?.isSome := by
  cases clause <;> rfl

theorem segment_isSome (p : Text) : (freeSegment p).isSome = !(filterOf p).isSome := by
  rw [freeSegment, filterOf, Option.isSome_map]
  cases (parseToken p).isSome <;> rfl

theorem not_colon_of_isClauseField {name : Text} (h : isClauseField (toLowerCase name) = true) :
    ∀ c ∈ name, c ≠ ':' := by
  rintro c hc rfl
  rw [isClauseField, Bool.and_eq_true] at h
  have hmem : ':' ∈ toLowerCase name := List.mem_map.mpr ⟨':', hc, by decide⟩
  exact absurd (List.all_eq_true.mp h.2 ':' hmem) (by decide)

theorem filterOf_of_token {p : Text} {t : SearchToken} (h : parseToken p = some t) :
    filterOf p = some t.toFilter := by
  rw [filterOf, h]
  rfl

theorem filterOf_of_none {p : Text} (h : parseToken p = none) : filterOf p = none := by
  rw [filterOf, h]
  rfl

/-- A token whose field the query takes too. -/
theorem alike_of_token {p : Text} {t : SearchToken} (h : parseToken p = some t) :
    (clauseOf p).filter? = some t.toFilter
      ↔ isClauseField t.field = true ∧ ∃ rest, p = sign t.negated ++ (t.field ++ ':' :: rest) := by
  obtain ⟨hgood, -, name, rawValue, hp, -, hname, hslashes, hvalue⟩ := parseToken_some h
  constructor
  · intro hfilter
    rcases clauseOf_cases p with ⟨negated, name', rest, hclause, hp', -, hfield, -⟩ | ⟨hnone, -⟩
    · rw [hclause] at hfilter
      have hsame := Option.some.inj hfilter
      have hfieldEq : name' = t.field := congrArg Filter.field hsame
      have hnegated : negated = t.negated := congrArg Filter.negated hsame
      rw [hfieldEq, hgood.lower] at hfield
      exact ⟨hfield, rest, by rw [← hfieldEq, ← hnegated]; exact hp'⟩
    · rw [hnone] at hfilter
      exact nomatch hfilter
  · rintro ⟨hfield, rest, hp'⟩
    have hcolon : ∀ c ∈ t.field, c ≠ ':' := fun c hc => (mem_field hgood.isField c hc).2.1
    have hbody : t.field ++ ':' :: rest = name ++ ':' :: rawValue :=
      List.append_cancel_left (hp'.symm.trans hp)
    have hrest : rest = rawValue := by
      have hdrop := congrArg (List.dropWhile (· ≠ ':')) hbody
      rw [dropWhile_colon hcolon, dropWhile_colon hname] at hdrop
      exact (List.cons.inj hdrop).2
    rw [hp', clauseOf_field hcolon (by rwa [hgood.lower]) (hrest ▸ hslashes), Clause.filter?, hrest,
      hvalue, Option.getD_some]

/-- Free text that the query does not take for a clause on a field. -/
theorem alike_of_text {p : Text} (h : parseToken p = none) :
    (clauseOf p).term? = freeSegment p
      ↔ parseQuotedValue p = none ∧ ∀ negated name rest, p = sign negated ++ (name ++ ':' :: rest) →
        isClauseField (toLowerCase name) = true → ['/', '/'] <+: rest := by
  rw [segment_of_none h]
  constructor
  · intro hterm
    have hp := mem_of_clause.2 _ hterm
    constructor
    · cases hquoted : parseQuotedValue p with
      | none => rfl
      | some d =>
          rw [decodeFreeTextSegment, hquoted, Option.getD_some] at hp
          exact absurd (congrArg List.length hp) (length_parseQuotedValue hquoted).ne
    · intro negated name rest hsplit hfield
      by_contra hslashes
      rw [hsplit, clauseOf_field (not_colon_of_isClauseField hfield) hfield hslashes] at hterm
      cases hterm
  · rintro ⟨hquoted, hclause⟩
    rw [decodeFreeTextSegment, hquoted, Option.getD_none]
    rcases clauseOf_cases p with ⟨negated, name, rest, -, hp, -, hfield, hslashes⟩ | ⟨-, hterm⟩
    · exact absurd (hclause negated name rest hp hfield) hslashes
    · exact hterm

/-- A piece that both read as the same. -/
theorem alike_iff {p : Text} (hspace : ∀ c ∈ p, isSpace c = false) :
    (clauseOf p).filter? = filterOf p ∧ (clauseOf p).term? = freeSegment p ↔ Alike p := by
  have hcases : (clauseOf p).term?.isSome = !(clauseOf p).filter?.isSome := clause_isSome _
  cases htoken : parseToken p with
  | some t =>
      have hsegment : freeSegment p = none := segment_of_token (by rw [htoken]; exact Option.some_ne_none t)
      rw [filterOf_of_token htoken, hsegment, alike_of_token htoken]
      constructor
      · rintro ⟨hclause, -⟩
        refine ⟨hspace, ?_, fun hnone => ?_⟩
        · intro t' ht'
          rw [← Option.some.inj (htoken.symm.trans ht')]
          exact hclause
        · exact nomatch htoken.symm.trans hnone
      · intro h
        have hclause := h.token t htoken
        refine ⟨hclause, ?_⟩
        rw [(alike_of_token htoken).mpr hclause] at hcases
        exact Option.isNone_iff_eq_none.mp (by rw [← Option.not_isSome, hcases]; rfl)
  | none =>
      rw [filterOf_of_none htoken, alike_of_text htoken]
      constructor
      · rintro ⟨-, hclause⟩
        exact ⟨hspace, fun t ht => (nomatch htoken.symm.trans ht), fun _ => hclause⟩
      · intro h
        have hclause := h.text htoken
        refine ⟨?_, hclause⟩
        rw [(alike_of_text htoken).mpr hclause, segment_of_none htoken] at hcases
        exact Option.isNone_iff_eq_none.mp (by simpa using hcases)

theorem isClauseField_of_filter {q : Text} {f : Filter} (h : (clauseOf q).filter? = some f)
    (hgood : GoodField f.field) : isClauseField f.field = true := by
  rcases clauseOf_cases q with ⟨negated, name, rest, hclause, -, -, hfield, -⟩ | ⟨hnone, -⟩
  · rw [hclause] at h
    have hname : name = f.field := congrArg Filter.field (Option.some.inj h)
    rwa [hname, hgood.lower] at hfield
  · rw [hnone] at h
    exact nomatch h

theorem isSome_of_clauseField {p : Text} {t : SearchToken} (h : parseToken p = some t)
    (hfield : isClauseField t.field = true) : (clauseOf p).filter?.isSome = true := by
  obtain ⟨-, -, name, rawValue, hp, hlower, hname, hslashes, -⟩ := parseToken_some h
  rw [hp, clauseOf_field hname (hlower ▸ hfield) hslashes]
  rfl

/-- The clauses of a search are its tokens and the segments of its free text exactly when
    both read every piece of it alike. -/
theorem query_agrees_iff (input : Text) : Agrees input ↔ ∀ p ∈ pieces cutter input, Alike p := by
  constructor
  · intro h
    have hspace := noSpace_of_agrees h
    obtain ⟨hfilters, hterms⟩ := h
    rw [clauses_eq hspace, List.filterMap_map, filters_eq] at hfilters
    rw [clauses_eq hspace, List.filterMap_map, segments_eq] at hterms
    -- the fields of the clauses are names that a token may have, so no token is missed
    have hsome : ∀ p ∈ pieces cutter input, (filterOf p).isSome = true →
        ((Clause.filter? ∘ clauseOf) p).isSome = true := by
      intro p hp hfilter
      obtain ⟨f, hf⟩ := Option.isSome_iff_exists.mp hfilter
      obtain ⟨t, ht, rfl⟩ := Option.map_eq_some_iff.mp hf
      have hmem : t.toFilter ∈ (pieces cutter input).filterMap (Clause.filter? ∘ clauseOf) := by
        rw [hfilters]
        exact List.mem_filterMap.mpr ⟨p, hp, hf⟩
      obtain ⟨q, -, hq⟩ := List.mem_filterMap.mp hmem
      exact isSome_of_clauseField ht (isClauseField_of_filter hq (parseToken_some ht).1)
    have hfilter := eq_of_filterMap_eq hsome hfilters.symm
    have hterm : ∀ p ∈ pieces cutter input, freeSegment p = (Clause.term? ∘ clauseOf) p := by
      refine eq_of_filterMap_eq ?_ hterms.symm
      intro p hp hsegment
      rw [Function.comp_apply, clause_isSome]
      rw [segment_isSome, hfilter p hp] at hsegment
      exact hsegment
    intro p hp
    exact (alike_iff (hspace p hp)).mp ⟨(hfilter p hp).symm, (hterm p hp).symm⟩
  · intro h
    have hspace : ∀ p ∈ pieces cutter input, ∀ c ∈ p, isSpace c = false := fun p hp =>
      (h p hp).noSpace
    have hsame : ∀ p ∈ pieces cutter input,
        (clauseOf p).filter? = filterOf p ∧ (clauseOf p).term? = freeSegment p := fun p hp =>
      (alike_iff (hspace p hp)).mpr (h p hp)
    constructor
    · rw [clauses_eq hspace, List.filterMap_map, filters_eq]
      exact List.filterMap_congr (fun p hp => (hsame p hp).1)
    · rw [clauses_eq hspace, List.filterMap_map, segments_eq]
      exact List.filterMap_congr (fun p hp => (hsame p hp).2)

/-- A quoted value with white space in it makes one token, and a clause for each word. -/
theorem quoted_value_split :
    ¬ Agrees "event:\"extract tool result\"".toList := by
  intro h
  have hspace := noSpace_of_agrees h
  have hpieces : pieces cutter "event:\"extract tool result\"".toList
      = ["event:\"extract tool result\"".toList] :=
    pieces_whole ⟨by decide, ⟨false, false⟩, by decide⟩
  rw [hpieces] at hspace
  exact absurd (hspace _ (List.mem_singleton.mpr rfl) ' ' (by decide)) (by decide)

end DevstackSearchQuery
