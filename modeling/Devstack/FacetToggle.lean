import Devstack.LiveTail
import Devstack.TokenEdits

/-! # Facet toggle — a facet value switched on and off

    `facetToken`, `isFacetValueActive` and `toggleFacet` of `src/components/log-viewer.tsx`
    in the dashboard.  A facet value is active if the token written of it is a word of the
    search; it is switched on by adding a token to the search or replacing those of its
    field, and switched off by leaving that word out, the other words one blank apart.

    * `shown_iff`: the token that is added makes its value active exactly if both write it
      alike, and as one word;
    * `undoable_iff`: and what was switched on is undone exactly if the search survives
      that its words are put one blank apart. -/

namespace DevstackFacetToggle

open DevstackSplitting DevstackSearchParser DevstackSearchRoundTrip DevstackSearchEdits
  DevstackSearchQuery DevstackTrimmedSearch DevstackTokenEdits
open DevstackAsciiWords (isAlphanum_iff)

-- ── log-viewer.tsx ────────────────────────────────────────────────────────────

/-- `/^[A-Za-z0-9_.-]+$/`. -/
def isSimple (value : Text) : Bool := !value.isEmpty && value.all isFieldChar

def facetToken (field value : Text) : Text :=
  if isSimple value then field ++ ':' :: value else field ++ ':' :: escapeTantivyPhrase value

def tokenParts (searchInput : Text) : List Text := pieces spaces (trim searchInput)

def isFacetValueActive (activeTab searchInput field value : Text) : Bool :=
  if field = "service".toList then
    activeTab == value || (tokenParts searchInput).contains (facetToken field value)
  else (tokenParts searchInput).contains (facetToken field value)

/-- What a click on a facet value does: it selects a service or sets the search. -/
inductive Toggled where
  | selectService (name : Option Text)
  | setSearchInput (searchInput : Text)
  deriving DecidableEq

def toggleFacet (activeTab searchInput field value : Text) : Toggled :=
  if field = "service".toList then
    .selectService (if activeTab = value then none else some value)
  else
    let token := facetToken field value
    let parts := tokenParts searchInput
    if parts.contains token then .setSearchInput (joinBy ' ' (parts.erase token))
    else if field = "level".toList ∨ field = "stream".toList then
      .setSearchInput (replaceAllTokens searchInput field value)
    else .setSearchInput (addToken searchInput field value)

-- ── what the claim is about ───────────────────────────────────────────────────

/-- The fields that a search is to name once. -/
def Single (field : Text) : Prop := field = "level".toList ∨ field = "stream".toList

instance (field : Text) : Decidable (Single field) :=
  inferInstanceAs (Decidable (field = "level".toList ∨ field = "stream".toList))

/-- What is asked of a level or stream only where the search has no token of that field. -/
def Asked (input field : Text) : Prop := Single field → ∀ t ∈ filters input, t.field ≠ field

/-- An inactive value is shown as active when it was switched on, no other value of the
    field is, and switched off again it leaves the search as it was. -/
structure Undoes (activeTab input field value next : Text) : Prop where
  toggled : toggleFacet activeTab input field value = .setSearchInput next
  shown : isFacetValueActive activeTab next field value = true
  others : ∀ other, other ≠ value → isFacetValueActive activeTab input field other = false →
    isFacetValueActive activeTab next field other = false
  undone : Asked input field →
    ∃ last, toggleFacet activeTab next field value = .setSearchInput last ∧ Same last input

def Undoable (activeTab input field value : Text) : Prop :=
  ∃ next, Undoes activeTab input field value next

/-- The search without the tokens that the new one replaces. -/
def remaining (input field : Text) : Text :=
  if Single field then buildSearch (others field (filters input)) (parseSearch input).freeText
  else input

/-- The words in front of the new token. -/
def wordsBefore (input field : Text) : List Text :=
  if Single field then
    (others field (filters input)).flatMap (fun t => pieces spaces (formatToken t))
  else tokenParts input

/-- The words of a search, one blank apart. -/
def spaced (x : Text) : Text := joinBy ' ' (tokenParts x)

/-- The value has no white space, and is written alike for the search and for the facet: it
    needs no quotes for either, or it needs them for both. -/
structure Plainly (value : Text) : Prop where
  noSpace : ∀ c ∈ value, isSpace c = false
  alike : isSimple value = true ∨ value = [] ∨ '"' ∈ value

/-- Where a facet value is switched on and off as it should be: its token is a word, what
    remains has no other facet value as a new word, and, where undoing is asked for, the
    search stays what it is when its words are put one blank apart. -/
structure Accepted (input field value : Text) : Prop where
  shown : Plainly value ∨ facetToken field value ∈ tokenParts (remaining input field)
  others : ∀ other, other ≠ value → facetToken field other ∈ tokenParts (remaining input field) →
    facetToken field other ∈ tokenParts input
  undone : Asked input field → Plainly value ∧ facetToken field value ∉ wordsBefore input field
    ∧ Same (spaced (remaining input field)) input

-- ── facet fields ──────────────────────────────────────────────────────────────

theorem isClauseField_spec {field : Text} (h : isClauseField field = true) :
    toLowerCase field = field ∧ ∀ c ∈ field, isSpace c = false := by
  rw [isClauseField, Bool.and_eq_true, List.all_eq_true] at h
  have hchar : ∀ c ∈ field, (if c = '\u212a' then 'k' else c.toLower) = c ∧ isSpace c = false := by
    intro c hc
    have hc := h.2 c hc
    have hascii : c.toNat < 128 := toNat_lt_of_isFieldChar (by
      simp only [Bool.or_eq_true] at hc
      rcases hc with (hc | hc) | hc
      · have halpha : c.isAlpha = true := by
          show (c.isUpper || c.isLower) = true
          rw [hc, Bool.or_true]
        simp [isFieldChar, isAlphanum_iff, halpha]
      · simp [isFieldChar, isAlphanum_iff, hc]
      · simp [isFieldChar, hc])
    rw [← Char.ofNat_toNat c] at hc ⊢
    exact (by decide : ∀ n : Fin 128, ((Char.ofNat n).isLower || (Char.ofNat n).isDigit
        || Char.ofNat n == '_') = true →
      (if Char.ofNat n = '\u212a' then 'k' else (Char.ofNat n).toLower) = Char.ofNat n
        ∧ isSpace (Char.ofNat n) = false) ⟨c.toNat, hascii⟩ hc
  exact ⟨(List.map_congr_left fun c hc => (hchar c hc).1).trans (List.map_id _),
    fun c hc => (hchar c hc).2⟩

/-- The attributes that the index has facets of are named so. -/
theorem isClauseField_of_normalizeName {fieldName name : String}
    (h : DevstackLiveTail.normalizeName fieldName = some name) :
    isClauseField name.toList = true := by
  have hchars : ∀ (last : Bool) (cs : Text), ∀ c ∈ DevstackLiveTail.normalizeChars last cs,
      (c.isLower || c.isDigit || c == '_') = true := by
    intro last cs
    induction cs generalizing last with
    | nil => exact fun c hc => absurd hc List.not_mem_nil
    | cons d cs ih =>
        rw [DevstackLiveTail.normalizeChars]
        split
        · next halnum =>
            have hlower : (d.toLower.isLower || d.toLower.isDigit || d.toLower == '_') = true := by
              have hascii : d.toNat < 128 :=
                toNat_lt_of_isFieldChar (by rw [isFieldChar, halnum]; rfl)
              rw [← Char.ofNat_toNat d] at halnum ⊢
              exact (by decide : ∀ n : Fin 128, (Char.ofNat n).isAlphanum = true →
                ((Char.ofNat n).toLower.isLower || (Char.ofNat n).toLower.isDigit
                  || (Char.ofNat n).toLower == '_') = true) ⟨d.toNat, hascii⟩ halnum
            exact List.forall_mem_cons.mpr ⟨hlower, ih false⟩
        · split
          · exact ih true
          · exact List.forall_mem_cons.mpr ⟨by decide, ih true⟩
  rw [DevstackLiveTail.normalizeName] at h
  split at h
  · cases h
  · next hne =>
      rw [← Option.some.inj h, String.toList_ofList, isClauseField, Bool.and_eq_true,
        List.all_eq_true, Bool.not_eq_true', List.isEmpty_eq_false_iff]
      refine ⟨hne, fun c hc => hchars false fieldName.toList c ?_⟩
      exact (List.dropWhile_suffix _).subset ((List.rdropWhile_prefix _ _).subset hc)

-- ── the token of a facet value ────────────────────────────────────────────────

theorem isSimple_spec {value : Text} (h : isSimple value = true) :
    value ≠ [] ∧ ∀ c ∈ value, isSpace c = false ∧ c ≠ '"' := by
  rw [isSimple, Bool.and_eq_true, List.all_eq_true, Bool.not_eq_true',
    List.isEmpty_eq_false_iff] at h
  exact ⟨h.1, fun c hc =>
    ⟨(isFieldChar_spec (h.2 c hc)).1, (isFieldChar_spec (h.2 c hc)).2.2.1⟩⟩

/-- What a token of a facet value is read as. -/
theorem facetToken_read (field value : Text) :
    ∃ raw, facetToken field value = field ++ ':' :: raw ∧ normalizeTokenValue raw = some value := by
  rw [facetToken]
  split
  · next hsimple =>
      obtain ⟨hne, hplain⟩ := isSimple_spec hsimple
      refine ⟨value, rfl, normalizeTokenValue_of_not_quoted hne ?_⟩
      rintro ⟨rest, rfl⟩
      exact (hplain '"' (by simp)).2 rfl
  · exact ⟨_, rfl, quotedRest_escape value⟩

/-- The value of a facet is told by its token. -/
theorem value_of_token {field value other : Text}
    (h : facetToken field other = formatToken ⟨field, value, false⟩) : other = value := by
  obtain ⟨raw, hother, hread⟩ := facetToken_read field other
  rw [hother] at h
  rw [(List.cons.inj (List.append_cancel_left h)).2, normalizeTokenValue_serializeValue] at hread
  exact (Option.some.inj hread).symm

/-- The token is written alike by both. -/
theorem facetToken_eq_iff {field value : Text} (h : ∀ c ∈ value, isSpace c = false) :
    facetToken field value = formatToken ⟨field, value, false⟩
      ↔ isSimple value = true ∨ value = [] ∨ '"' ∈ value := by
  have hneeds : needsQuotes value = true ↔ value = [] ∨ '"' ∈ value := by
    rw [needsQuotes, Bool.or_eq_true, List.isEmpty_iff, List.any_eq_true]
    refine or_congr_right ⟨?_, fun hmem => ⟨'"', hmem, by decide⟩⟩
    rintro ⟨c, hc, hquote⟩
    rw [h c hc, Bool.false_or, beq_iff_eq] at hquote
    exact hquote ▸ hc
  rw [facetToken, formatToken_eq, serializeValue]
  cases hsimple : isSimple value with
  | true =>
      obtain ⟨hne, hplain⟩ := isSimple_spec hsimple
      have hnot : ¬ needsQuotes value = true := fun hneed =>
        (hneeds.mp hneed).elim hne fun hmem => (hplain '"' hmem).2 rfl
      rw [if_pos rfl, if_neg hnot]
      simp [sign]
  | false =>
      rw [if_neg Bool.false_ne_true, ← hneeds]
      cases hneed : needsQuotes value with
      | true => simp [sign, escapeTantivyPhrase]
      | false =>
          rw [if_neg Bool.false_ne_true]
          constructor
          · intro heq
            have hvalue : '"' :: (escape value ++ ['"']) = value :=
              (List.cons.inj (List.append_cancel_left heq)).2
            have hmem : '"' ∈ value := hvalue ▸ List.mem_cons_self ..
            exact absurd (hneeds.mpr (Or.inr hmem)) (by simp [hneed])
          · rintro (hnot | hnot)
            · cases hnot
            · cases hnot

-- ── the words of a search ─────────────────────────────────────────────────────

theorem space_blank : spaces.blank ' ' = true := rfl

theorem tokenParts_eq (x : Text) : tokenParts x = pieces spaces x := pieces_trim x

theorem pieces_of_noSpace {p : Text} (hne : p ≠ []) (h : ∀ c ∈ p, isSpace c = false) :
    pieces spaces p = [p] :=
  pieces_whole (closed_blanks_iff.mpr ⟨hne, h⟩).whole

theorem formatToken_ne_nil {field value : Text} :
    formatToken ⟨field, value, false⟩ ≠ [] := by
  rw [formatToken_eq]
  simp [sign]

/-- A token is one word if there is no white space in its value. -/
theorem noSpace_format {field value : Text} (hfield : ∀ c ∈ field, isSpace c = false)
    (h : ∀ c ∈ value, isSpace c = false) :
    ∀ c ∈ formatToken ⟨field, value, false⟩, isSpace c = false := by
  have hvalue : ∀ c ∈ serializeValue value, isSpace c = false := by
    intro c hc
    rw [serializeValue] at hc
    split at hc
    · rcases List.mem_cons.mp hc with rfl | hc
      · decide
      · rcases List.mem_append.mp hc with hc | hc
        · rcases mem_escape hc with hc | rfl
          · exact h c hc
          · decide
        · rw [List.mem_singleton.mp hc]
          decide
    · exact h c hc
  intro c hc
  change c ∈ [] ++ (field ++ ':' :: serializeValue value) at hc
  rcases List.mem_append.mp hc with hc | hc
  · exact absurd hc List.not_mem_nil
  · rcases List.mem_append.mp hc with hc | hc
    · exact hfield c hc
    · rcases List.mem_cons.mp hc with rfl | hc
      · decide
      · exact hvalue c hc

/-- White space in a value is in its token. -/
theorem noSpace_of_facetToken {field value : Text}
    (h : ∀ c ∈ facetToken field value, isSpace c = false) : ∀ c ∈ value, isSpace c = false := by
  intro c hc
  rw [facetToken] at h
  split at h
  · exact h c (by simp [hc])
  · have hmem := mem_of_quotedRest (quotedRest_escape value) c hc
    exact h c (List.mem_append_right _ (List.mem_cons_of_mem _ (List.mem_cons_of_mem _ hmem)))

theorem words_of_noSpace {field value : Text} (hfield : ∀ c ∈ field, isSpace c = false)
    (h : ∀ c ∈ value, isSpace c = false) :
    pieces spaces (formatToken ⟨field, value, false⟩) = [formatToken ⟨field, value, false⟩] :=
  pieces_of_noSpace formatToken_ne_nil (noSpace_format hfield h)

/-- **WHEN A TOKEN IS SHOWN**: its facet value is active exactly if both write it alike, as
    one word. -/
theorem shown_iff {field value : Text} (hfield : ∀ c ∈ field, isSpace c = false) :
    facetToken field value ∈ pieces spaces (formatToken ⟨field, value, false⟩)
      ↔ Plainly value := by
  constructor
  · intro hmem
    have hvalue := noSpace_of_facetToken (not_blank_of_mem_pieces (k := spaces) hmem)
    rw [words_of_noSpace hfield hvalue, List.mem_singleton] at hmem
    exact ⟨hvalue, (facetToken_eq_iff hvalue).mp hmem⟩
  · rintro ⟨hvalue, halike⟩
    rw [words_of_noSpace hfield hvalue, List.mem_singleton]
    exact (facetToken_eq_iff hvalue).mpr halike

/-- The words of what is printed. -/
theorem words_build (ts : List Filter) (freeText : Text) :
    pieces spaces (buildSearch ts freeText)
      = ts.flatMap (fun t => pieces spaces (formatToken t)) ++ pieces spaces freeText := by
  rw [buildSearch, pieces_joinBy space_blank, List.flatMap_append, List.flatMap_map,
    ← pieces_trim freeText]
  refine congrArg (_ ++ ·) ?_
  split
  · next hnil => rw [hnil, pieces_nil, List.flatMap_nil]
  · rw [List.flatMap_cons, List.flatMap_nil, List.append_nil]

theorem joinBy_flatMap {words : Text → List Text} {ps : List Text}
    (h : ∀ p ∈ ps, words p ≠ [] ∧ joinBy ' ' (words p) = p) :
    joinBy ' ' (ps.flatMap words) = joinBy ' ' ps := by
  induction ps with
  | nil => rfl
  | cons p ps ih =>
      obtain ⟨⟨hne, hp⟩, hps⟩ := List.forall_mem_cons.mp h
      rw [List.flatMap_cons]
      cases ps with
      | nil => rw [List.flatMap_nil, List.append_nil, hp, joinBy]
      | cons q ps =>
          have hrest : (q :: ps).flatMap words ≠ [] := by
            rw [List.flatMap_cons]
            exact fun hnil => (hps q (List.mem_cons_self ..)).1 (List.append_eq_nil_iff.mp hnil).1
          rw [joinBy_append _ _ hrest, lead_eq_joinBy _ hne, hp, ih hps,
            joinBy_cons _ p (List.cons_ne_nil _ _)]

/-- A search survives that its words are put one blank apart if those of each of its pieces
    are. -/
theorem same_spaced {x : Text} (h : ∀ p ∈ pieces cutter x, joinBy ' ' (pieces spaces p) = p) :
    Same (spaced x) x := by
  have hjoin : spaced x = joinBy ' ' (pieces cutter x) := by
    rw [spaced, tokenParts_eq,
      pieces_flatMap (o := cutter) (k := spaces) (fun _ => isSpace_of_isWhitespace)]
    refine joinBy_flatMap fun p hp => ⟨fun hnil => ?_, h p hp⟩
    have hp' := h p hp
    rw [hnil] at hp'
    exact (whole_of_mem_pieces hp).1 hp'.symm
  rw [same_iff, hjoin, pieces_joinBy_pieces isWhitespace_blank]
  exact ⟨rfl, rfl⟩

-- ── a value toggled ───────────────────────────────────────────────────────────

theorem active_iff {activeTab input field value : Text} (hservice : field ≠ "service".toList) :
    isFacetValueActive activeTab input field value = true
      ↔ facetToken field value ∈ tokenParts input := by
  rw [isFacetValueActive, if_neg hservice, List.contains_iff_mem]

theorem inactive_iff {activeTab input field value : Text} (hservice : field ≠ "service".toList) :
    isFacetValueActive activeTab input field value = false
      ↔ facetToken field value ∉ tokenParts input := by
  rw [← active_iff hservice, Bool.not_eq_true]

/-- An inactive value is switched on: the words of its token come among those that
    remain. -/
theorem toggled_on (activeTab : Text) {input field value : Text}
    (hfield : isClauseField field = true) (hservice : field ≠ "service".toList)
    (hinactive : facetToken field value ∉ tokenParts input) :
    ∃ next after, toggleFacet activeTab input field value = .setSearchInput next
      ∧ tokenParts next
        = wordsBefore input field ++ (pieces spaces (formatToken ⟨field, value, false⟩) ++ after)
      ∧ tokenParts (remaining input field) = wordsBefore input field ++ after := by
  have hlower := (isClauseField_spec hfield).1
  rw [toggleFacet, if_neg hservice]
  simp only [List.contains_iff_mem, if_neg hinactive]
  by_cases hsingle : Single field
  · have hfields : field = "level".toList ∨ field = "stream".toList := hsingle
    rw [if_pos hfields, remaining, if_pos hsingle, wordsBefore, if_pos hsingle]
    refine ⟨_, pieces spaces (parseSearch input).freeText, rfl, ?_, ?_⟩
    · rw [tokenParts_eq, replaceAllTokens_eq, words_build, replaced, hlower, List.flatMap_append,
        List.flatMap_cons, List.flatMap_nil, List.append_nil, List.append_assoc]
    · rw [tokenParts_eq, words_build]
  · have hfields : ¬ (field = "level".toList ∨ field = "stream".toList) := hsingle
    rw [if_neg hfields, remaining, if_neg hsingle, wordsBefore, if_neg hsingle]
    refine ⟨_, [], rfl, ?_, (List.append_nil _).symm⟩
    rw [addToken, hlower, List.append_nil, tokenParts_eq]
    by_cases hnil : trim input = []
    · rw [if_pos hnil, tokenParts, hnil, pieces_nil, List.nil_append]
    · rw [if_neg hnil, pieces_append_blank space_blank, tokenParts]

/-- And switched off again: its word is left out. -/
theorem toggled_off {activeTab input field value : Text} (hservice : field ≠ "service".toList)
    (hactive : facetToken field value ∈ tokenParts input) :
    toggleFacet activeTab input field value
      = .setSearchInput (joinBy ' ' ((tokenParts input).erase (facetToken field value))) := by
  rw [toggleFacet, if_neg hservice]
  simp only [List.contains_iff_mem, if_pos hactive]

section Toggles

variable {activeTab input field value : Text} (hfield : isClauseField field = true)
  (hservice : field ≠ "service".toList)
  (hinactive : isFacetValueActive activeTab input field value = false)

include hfield hservice hinactive

theorem undoable_of_accepted (h : Accepted input field value) :
    Undoable activeTab input field value := by
  have hspace := (isClauseField_spec hfield).2
  obtain ⟨next, after, hnext, hwords, hremaining⟩ :=
    toggled_on activeTab hfield hservice ((inactive_iff hservice).mp hinactive)
  have hvalue : ∀ c ∈ value, isSpace c = false := by
    rcases h.shown with hplain | hmem
    · exact hplain.noSpace
    · rw [tokenParts_eq] at hmem
      exact noSpace_of_facetToken (not_blank_of_mem_pieces (k := spaces) hmem)
  rw [words_of_noSpace hspace hvalue] at hwords
  have hactive : facetToken field value ∈ tokenParts next := by
    rw [hwords]
    rcases h.shown with hplain | hmem
    · rw [(facetToken_eq_iff hvalue).mpr hplain.alike]
      simp
    · rw [hremaining] at hmem
      exact (List.mem_append.mp hmem).elim (fun h => List.mem_append_left _ h)
        fun h => List.mem_append_right _ (List.mem_append_right _ h)
  refine ⟨next, hnext, (active_iff hservice).mpr hactive, fun other hne hother => ?_,
    fun hasked => ?_⟩
  · rw [inactive_iff hservice] at hother ⊢
    intro hmem
    refine hother (h.others other hne ?_)
    rw [hwords] at hmem
    rw [hremaining]
    rcases List.mem_append.mp hmem with hmem | hmem
    · exact List.mem_append_left _ hmem
    · rcases List.mem_append.mp hmem with hmem | hmem
      · exact absurd (value_of_token (List.mem_singleton.mp hmem)) hne
      · exact List.mem_append_right _ hmem
  · obtain ⟨hplain, hbefore, hspaced⟩ := h.undone hasked
    refine ⟨_, toggled_off hservice hactive, ?_⟩
    rw [hwords, ← (facetToken_eq_iff hvalue).mpr hplain.alike, List.erase_append_right _ hbefore,
      List.singleton_append, List.erase_cons_head, ← hremaining]
    exact hspaced

theorem accepted_of_undoable
    (hword : Single field → Asked input field →
      facetToken field value ∉ tokenParts (remaining input field))
    (h : Undoable activeTab input field value) : Accepted input field value := by
  obtain ⟨next', hnext', hshown, hothers, hundone⟩ := h
  have hspace := (isClauseField_spec hfield).2
  have hinput := (inactive_iff hservice).mp hinactive
  obtain ⟨next, after, hnext, hwords, hremaining⟩ :=
    toggled_on activeTab hfield hservice hinput
  obtain rfl : next = next' := Toggled.setSearchInput.inj (hnext.symm.trans hnext')
  rw [active_iff hservice] at hshown
  have hplain : Plainly value ∨ facetToken field value ∈ tokenParts (remaining input field) := by
    have hmem := hshown
    rw [hwords] at hmem
    rw [hremaining]
    rcases List.mem_append.mp hmem with hmem | hmem
    · exact Or.inr (List.mem_append_left _ hmem)
    · rcases List.mem_append.mp hmem with hmem | hmem
      · exact Or.inl ((shown_iff hspace).mp hmem)
      · exact Or.inr (List.mem_append_right _ hmem)
  refine ⟨hplain, fun other hne hmem => ?_, fun hasked => ?_⟩
  · by_contra hother
    have hstill := hothers other hne ((inactive_iff hservice).mpr hother)
    rw [inactive_iff hservice, hwords] at hstill
    rw [hremaining] at hmem
    rcases List.mem_append.mp hmem with hmem | hmem
    · exact hstill (List.mem_append_left _ hmem)
    · exact hstill (List.mem_append_right _ (List.mem_append_right _ hmem))
  · have hnot : facetToken field value ∉ tokenParts (remaining input field) := by
      by_cases hsingle : Single field
      · exact hword hsingle hasked
      · rw [remaining, if_neg hsingle]
        exact hinput
    have hplain := hplain.resolve_right hnot
    rw [hremaining, List.mem_append, not_or] at hnot
    obtain ⟨last, hlast, hsame⟩ := hundone hasked
    rw [toggled_off hservice hshown, hwords, words_of_noSpace hspace hplain.noSpace,
      ← (facetToken_eq_iff hplain.noSpace).mpr hplain.alike, List.erase_append_right _ hnot.1,
      List.singleton_append, List.erase_cons_head, ← hremaining] at hlast
    refine ⟨hplain, hnot.1, ?_⟩
    rw [spaced, Toggled.setSearchInput.inj hlast]
    exact hsame

/-- **WHAT IS UNDONE**: a facet value is switched on and off as it should be if it is
    accepted, and it has to be, save for a level or stream that is to be undone and whose
    token is a word of what remains. -/
theorem undoable_iff :
    (Accepted input field value → Undoable activeTab input field value)
      ∧ ((Single field → Asked input field →
          facetToken field value ∉ tokenParts (remaining input field)) →
        (Undoable activeTab input field value ↔ Accepted input field value)) := by
  have haccepted := undoable_of_accepted hfield hservice hinactive
  exact ⟨haccepted, fun hword =>
    ⟨accepted_of_undoable hfield hservice hinactive hword, haccepted⟩⟩

end Toggles

-- ── a value with a slash ──────────────────────────────────────────────────────

/-- A path is added to the search without quotes, and looked for with quotes. -/
theorem path_not_shown :
    isFacetValueActive "__all__".toList [] "path".toList "/tmp".toList = false
      ∧ ¬ Undoable "__all__".toList [] "path".toList "/tmp".toList := by
  have hservice : "path".toList ≠ "service".toList := by decide
  have hwords : tokenParts [] = [] := by rw [tokenParts_eq, pieces_nil]
  have hinactive : isFacetValueActive "__all__".toList [] "path".toList "/tmp".toList = false := by
    rw [inactive_iff hservice, hwords]
    exact List.not_mem_nil
  refine ⟨hinactive, fun h => ?_⟩
  have hsingle : ¬ Single "path".toList := by decide
  rcases (accepted_of_undoable (by decide) hservice hinactive
    (fun hone => absurd hone hsingle) h).shown with hplain | hmem
  · exact absurd hplain.alike (by decide)
  · rw [remaining, if_neg hsingle, hwords] at hmem
    exact absurd hmem List.not_mem_nil

/-- A word is switched on and off. -/
theorem word_undone : Undoable "__all__".toList "a".toList "event".toList "x".toList := by
  have hsingle : ¬ Single "event".toList := by decide
  have hpieces : pieces cutter "a".toList = ["a".toList] :=
    pieces_whole ⟨by decide, ⟨false, false⟩, by decide⟩
  have hword : pieces spaces "a".toList = ["a".toList] :=
    pieces_of_noSpace (by decide) (List.forall_mem_singleton.mpr (by decide))
  have hservice : "event".toList ≠ "service".toList := by decide
  have hinactive : isFacetValueActive "__all__".toList "a".toList "event".toList "x".toList
      = false := by
    rw [inactive_iff hservice, tokenParts_eq, hword]
    decide
  have hremaining : remaining "a".toList "event".toList = "a".toList := if_neg hsingle
  have hplain : Plainly "x".toList := ⟨List.forall_mem_singleton.mpr (by decide), by decide⟩
  refine (undoable_iff (by decide) hservice hinactive).1 ⟨?_, fun other _ hmem => ?_, fun _ => ?_⟩
  · exact Or.inl hplain
  · rwa [hremaining] at hmem
  · refine ⟨hplain, ?_, ?_⟩
    · rw [wordsBefore, if_neg hsingle, tokenParts_eq, hword]
      decide
    · rw [hremaining]
      refine same_spaced fun p hp => ?_
      rw [hpieces] at hp
      rw [List.mem_singleton.mp hp, hword]
      rfl

end DevstackFacetToggle
