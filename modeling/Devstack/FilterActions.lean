import Devstack.SearchEdits

/-! # Filter actions — including and excluding a value of a search

    `applySearchToken` of `src/components/log-viewer.tsx` in the dashboard: a click on a
    value includes it in the search, excludes it, or searches for nothing else.  The
    tokens that stay and the new one are printed and read again.

    * `applied`: what comes out where the printed search is stable;
    * `consistent_iff`: an edit keeps the search consistent exactly where it is stable,
      the field is one, and no value is excluded that the search includes. -/

namespace DevstackFilterActions

open DevstackSplitting DevstackSearchParser DevstackSearchRoundTrip DevstackSearchEdits

-- ── log-viewer.tsx ────────────────────────────────────────────────────────────

inductive DetailFilterAction where
  | include
  | exclude
  | only
  deriving DecidableEq

/-- `SINGLE_VALUE_SEARCH_FIELDS`. -/
def singleValueSearchFields : List Text := ["level".toList, "stream".toList, "service".toList]

/-- The tokens that an action leaves. -/
def filteredTokens (nextTokens : List Filter) (normalizedField value : Text)
    (action : DetailFilterAction) : List Filter :=
  nextTokens.filter (fun token =>
    if token.field ≠ normalizedField then true
    else if normalizedField ∈ singleValueSearchFields then false
    else if action = .include then !(token.negated && token.value == value)
    else !token.negated || token.value != value)

def applySearchToken (input field value : Text) (action : DetailFilterAction) : Text :=
  let normalizedField := toLowerCase field
  let parsed := parseSearch input
  let nextTokens := parsed.tokens.map (·.toFilter)
  if action = .only then buildSearch [⟨normalizedField, value, false⟩] []
  else
    let hasExactToken := nextTokens.any (fun token =>
      token.field == normalizedField && token.value == value
        && token.negated == decide (action = .exclude))
    let filtered := filteredTokens nextTokens normalizedField value action
    if hasExactToken ∧ normalizedField ∉ singleValueSearchFields then
      buildSearch filtered parsed.freeText
    else
      buildSearch (filtered ++ [⟨normalizedField, value, decide (action = .exclude)⟩])
        parsed.freeText

-- ── what the claim is about ───────────────────────────────────────────────────

/-- The token of an action: the value with the sign of the action. -/
def target (field value : Text) (action : DetailFilterAction) : Filter :=
  ⟨toLowerCase field, value, decide (action = .exclude)⟩

/-- No value of a field is both included and excluded. -/
def OneSign (ts : List Filter) : Prop :=
  ∀ field value, ¬ ((⟨field, value, false⟩ : Filter) ∈ ts ∧ (⟨field, value, true⟩ : Filter) ∈ ts)

/-- What an action on a value of a field keeps, and brings. -/
structure Consistent (input field value : Text) (action : DetailFilterAction) : Prop where
  oneSign : ¬ ((⟨toLowerCase field, value, false⟩ : Filter)
        ∈ filters (applySearchToken input field value action)
      ∧ (⟨toLowerCase field, value, true⟩ : Filter)
        ∈ filters (applySearchToken input field value action))
  present : target field value action ∉ filters input →
    target field value action ∈ filters (applySearchToken input field value action)
  others : others (toLowerCase field) (filters (applySearchToken input field value action))
    = others (toLowerCase field) (filters input)
  freeText : (parseSearch (applySearchToken input field value action)).freeText
    = (parseSearch input).freeText

/-- The tokens that are printed: those that are not of the action's field, if it takes one
    value only, or else not the excluded value, and behind them the new one where the
    search lacked it. -/
def editedTokens (input field value : Text) (action : DetailFilterAction) : List Filter :=
  if toLowerCase field ∈ singleValueSearchFields then
    others (toLowerCase field) (filters input) ++ [target field value action]
  else
    (filters input).filter (· ≠ ⟨toLowerCase field, value, true⟩)
      ++ if target field value action ∈ filters input then [] else [target field value action]

/-- Where an action does what it is for. -/
structure Accepted (input field value : Text) (action : DetailFilterAction) : Prop where
  isField : isField (toLowerCase field) = true
  notIncluded : action = .exclude → toLowerCase field ∉ singleValueSearchFields →
    (⟨toLowerCase field, value, false⟩ : Filter) ∉ filters input
  stable : Stable (editedTokens input field value action) (parseSearch input).freeText

theorem filteredTokens_single {ts : List Filter} {field value : Text}
    {action : DetailFilterAction} (hsingle : field ∈ singleValueSearchFields) :
    filteredTokens ts field value action = others field ts := by
  refine List.filter_congr fun t _ => ?_
  by_cases hfield : t.field = field
  · simp [hfield, hsingle]
  · simp [hfield]

theorem filteredTokens_many {ts : List Filter} {field value : Text}
    {action : DetailFilterAction} (hmany : field ∉ singleValueSearchFields) :
    filteredTokens ts field value action = ts.filter (· ≠ ⟨field, value, true⟩) := by
  refine List.filter_congr fun t _ => ?_
  obtain ⟨tfield, tvalue, tnegated⟩ := t
  by_cases hfield : tfield = field
  · cases tnegated <;> simp [hfield, hmany, bne, beq_eq_decide]
  · simp [hfield]

theorem applySearchToken_eq {input field value : Text} {action : DetailFilterAction}
    (haction : action ≠ .only) :
    applySearchToken input field value action
      = buildSearch (editedTokens input field value action) (parseSearch input).freeText := by
  have hexact : (filters input).any (fun token => token.field == toLowerCase field
      && token.value == value && token.negated == decide (action = .exclude)) = true
      ↔ target field value action ∈ filters input := by
    rw [List.any_eq_true]
    constructor
    · rintro ⟨⟨tfield, tvalue, tnegated⟩, hmem, htoken⟩
      simp only [Bool.and_eq_true, beq_iff_eq] at htoken
      obtain ⟨⟨rfl, rfl⟩, rfl⟩ := htoken
      exact hmem
    · exact fun hmem => ⟨_, hmem, by simp [target]⟩
  rw [applySearchToken, if_neg haction, editedTokens]
  by_cases hsingle : toLowerCase field ∈ singleValueSearchFields
  · rw [if_neg (fun h => h.2 hsingle), if_pos hsingle]
    exact congrArg (fun ts => buildSearch (ts ++ _) _) (filteredTokens_single hsingle)
  · rw [if_neg hsingle, filteredTokens_many hsingle]
    by_cases hmem : target field value action ∈ filters input
    · rw [if_pos ⟨hexact.mpr hmem, hsingle⟩, if_pos hmem, List.append_nil]
      rfl
    · rw [if_neg (fun h => hmem (hexact.mp h.1)), if_neg hmem]
      rfl

-- ── the tokens that are printed ───────────────────────────────────────────────

theorem mem_editedTokens {input field value : Text} {action : DetailFilterAction} {t : Filter}
    (h : t ∈ editedTokens input field value action) :
    t = target field value action ∨ t ∈ filters input ∧ t ≠ ⟨toLowerCase field, value, true⟩
      ∧ (toLowerCase field ∈ singleValueSearchFields → t.field ≠ toLowerCase field) := by
  rw [editedTokens] at h
  split at h
  · next hsingle =>
      rcases List.mem_append.mp h with h | h
      · obtain ⟨hmem, hfield⟩ := List.mem_filter.mp h
        have hfield : t.field ≠ toLowerCase field := by simpa using hfield
        exact Or.inr ⟨hmem, fun heq => hfield (by rw [heq]), fun _ => hfield⟩
      · exact Or.inl (List.mem_singleton.mp h)
  · next hmany =>
      rcases List.mem_append.mp h with h | h
      · obtain ⟨hmem, hne⟩ := List.mem_filter.mp h
        exact Or.inr ⟨hmem, by simpa using hne, fun hsingle => absurd hsingle hmany⟩
      · split at h
        · exact absurd h List.not_mem_nil
        · exact Or.inl (List.mem_singleton.mp h)

theorem others_editedTokens (input field value : Text) (action : DetailFilterAction) :
    others (toLowerCase field) (editedTokens input field value action)
      = others (toLowerCase field) (filters input) := by
  have hnew : others (toLowerCase field) [target field value action] = [] :=
    others_cons_of_eq rfl []
  rw [editedTokens]
  split
  · rw [others_append, hnew, List.append_nil, others, others, List.filter_filter]
    simp
  · have hkept : others (toLowerCase field)
        ((filters input).filter (· ≠ ⟨toLowerCase field, value, true⟩))
        = others (toLowerCase field) (filters input) := by
      rw [others, others, List.filter_filter]
      refine List.filter_congr fun t _ => ?_
      by_cases hfield : t.field = toLowerCase field
      · simp [hfield]
      · have hne : t ≠ ⟨toLowerCase field, value, true⟩ := fun heq => hfield (by rw [heq])
        simp [hfield, hne]
    rw [others_append, hkept]
    split
    · exact List.append_nil _
    · rw [hnew, List.append_nil]

theorem target_mem_editedTokens {input field value : Text} {action : DetailFilterAction}
    (h : target field value action ∉ filters input) :
    target field value action ∈ editedTokens input field value action := by
  rw [editedTokens]
  split
  · exact List.mem_append_right _ (List.mem_singleton.mpr rfl)
  · exact List.mem_append_right _ (List.mem_singleton.mpr rfl)

theorem goodField_editedTokens {input field value : Text} {action : DetailFilterAction}
    (hfield : isField (toLowerCase field) = true) :
    ∀ t ∈ editedTokens input field value action, GoodField t.field := by
  intro t ht
  rcases mem_editedTokens ht with rfl | ⟨hmem, -⟩
  · exact goodField_toLowerCase hfield
  · exact goodField_of_mem hmem

section Actions

variable {input field value : Text} {action : DetailFilterAction}

/-- What comes out where the printed search is stable. -/
theorem applied (haction : action ≠ .only) (h : Accepted input field value action) :
    filters (applySearchToken input field value action) = editedTokens input field value action
      ∧ (parseSearch (applySearchToken input field value action)).freeText
        = (parseSearch input).freeText := by
  rw [applySearchToken_eq haction]
  exact readsAgain_same ((readsAgain_iff (goodField_editedTokens h.isField)
    (trim_freeText input)).mpr h.stable)

/-- An accepted action keeps the search consistent. -/
theorem consistent_of_accepted (haction : action ≠ .only) (h : Accepted input field value action) :
    Consistent input field value action := by
  obtain ⟨hfilters, hfree⟩ := applied haction h
  refine ⟨?_, ?_, ?_, hfree⟩
  · rw [hfilters]
    rintro ⟨hincluded, hexcluded⟩
    have hexclude : action = .exclude := by
      rcases mem_editedTokens hexcluded with heq | ⟨-, hne, -⟩
      · simpa [target] using (congrArg Filter.negated heq).symm
      · exact absurd rfl hne
    rcases mem_editedTokens hincluded with heq | ⟨hmem, -, hsingle⟩
    · have hsign := congrArg Filter.negated heq
      simp [target, hexclude] at hsign
    · exact h.notIncluded hexclude (fun hs => hsingle hs rfl) hmem
  · rw [hfilters]
    exact target_mem_editedTokens
  · rw [hfilters, others_editedTokens]

/-- The field of an action that keeps the search consistent is one. -/
theorem isField_of_consistent (h : Consistent input field value action) :
    isField (toLowerCase field) = true := by
  by_cases hmem : target field value action ∈ filters input
  · exact (goodField_of_mem hmem).isField
  · exact (goodField_of_mem (h.present hmem)).isField

/-- The tokens that stay, and the new one behind them: where the search had it already, the
    field takes one value only and no token stays on it. -/
theorem editedTokens_cases (input field value : Text) (action : DetailFilterAction) :
    ∃ kept, (∀ t ∈ kept, t ∈ filters input)
      ∧ (editedTokens input field value action = kept
        ∨ editedTokens input field value action = kept ++ [target field value action]
          ∧ (target field value action ∉ filters input
            ∨ ∀ t ∈ kept, t.field ≠ toLowerCase field)) := by
  rw [editedTokens]
  split
  · refine ⟨others (toLowerCase field) (filters input), fun t ht => (List.mem_filter.mp ht).1,
      Or.inr ⟨rfl, Or.inr fun t ht => ?_⟩⟩
    simpa using (List.mem_filter.mp ht).2
  · refine ⟨(filters input).filter (· ≠ ⟨toLowerCase field, value, true⟩),
      fun t ht => (List.mem_filter.mp ht).1, ?_⟩
    split
    · exact Or.inl (List.append_nil _)
    · next hmem => exact Or.inr ⟨rfl, Or.inl hmem⟩

theorem split_concat {ts before after : List Filter} {t u : Filter}
    (h : ts ++ [u] = before ++ t :: after) :
    (after = [] ∧ t = u ∧ before = ts) ∨ (after ≠ [] ∧ ∃ after', ts = before ++ t :: after') := by
  rcases List.eq_nil_or_concat after with rfl | ⟨init, v, rfl⟩
  · obtain ⟨hbefore, hlast⟩ := List.append_inj' h rfl
    exact Or.inl ⟨rfl, (List.cons.inj hlast).1.symm, hbefore.symm⟩
  · rw [List.concat_eq_append, ← List.cons_append, ← List.append_assoc] at h
    exact Or.inr ⟨by simp, init, (List.append_inj' h rfl).1⟩

/-- A consistent action prints a stable search, where the search has no token on its field
    that takes in what follows it. -/
theorem stable_of_consistent (haction : action ≠ .only)
    (hdangles : ∀ t ∈ filters input, t.field = toLowerCase field → dangles t.value = false)
    (h : Consistent input field value action) :
    Stable (editedTokens input field value action) (parseSearch input).freeText := by
  have hts : ∀ t ∈ editedTokens input field value action, GoodField t.field :=
    goodField_editedTokens (isField_of_consistent h)
  have htrim := trim_freeText input
  have hfree := h.freeText
  have hothers := h.others
  have hpresent := h.present
  rw [applySearchToken_eq haction] at hfree hothers hpresent
  rw [← others_editedTokens input field value action] at hothers
  have hnone := free_of_kept hts htrim hfree
  obtain ⟨kept, hmem, hedited | ⟨hedited, hnew⟩⟩ := editedTokens_cases input field value action
  · rw [hedited] at hts hfree hothers ⊢
    have hopen : ∀ t ∈ kept, t.field = toLowerCase field → dangles t.value = false :=
      fun t ht hfield => hdangles t (hmem t ht) hfield
    have hkept := others_kept htrim hnone hts (fun before t after hsplit hfield _ =>
      hopen t (by rw [hsplit]; simp) hfield) hothers
    refine stable_of_apart hts htrim (fun before t after hsplit hdangle => ?_) hfree
    by_cases hfield : t.field = toLowerCase field
    · rw [hopen t (by rw [hsplit]; simp) hfield] at hdangle
      exact nomatch hdangle
    · exact (hkept before t after hsplit hfield).2 hdangle
  · rw [hedited] at hts hfree hothers hpresent ⊢
    have hopen : ∀ t ∈ kept, t.field = toLowerCase field → dangles t.value = false :=
      fun t ht hfield => hdangles t (hmem t ht) hfield
    have hkept := others_kept htrim hnone hts (fun before t after hsplit hfield hafter => by
      rcases split_concat hsplit with ⟨hnil, -⟩ | ⟨-, after', hsplit'⟩
      · exact absurd hnil hafter
      · exact hopen t (by rw [hsplit']; simp) hfield) hothers
    -- the tokens that stay are read as they are
    have hclosed : ∀ t ∈ kept, dangles t.value = false := by
      intro t ht
      by_cases hfield : t.field = toLowerCase field
      · exact hopen t ht hfield
      · obtain ⟨before, after, rfl⟩ := List.append_of_mem ht
        by_contra hdangle
        have hlast := (hkept before t (after ++ [target field value action])
          (by simp) hfield).2 (by simpa using hdangle)
        exact absurd hlast.1 (by simp)
    refine stable_of_apart hts htrim (fun before t after hsplit hdangle => ?_) hfree
    rcases split_concat hsplit with ⟨rfl, rfl, rfl⟩ | ⟨-, after', rfl⟩
    · refine ⟨rfl, by_contra fun hempty => ?_⟩
      -- the new token takes in free text, which an address in front makes up for
      obtain ⟨⟨u, hu, hslashed⟩, hread⟩ := kept_last hts htrim hempty hclosed hdangle hfree
      rcases hnew with hlacked | hone
      · exact hlacked (hmem _ (hread (hpresent hlacked)))
      · obtain ⟨front, back, rfl⟩ := List.append_of_mem hu
        exact (hkept front u (back ++ [target field value action]) (by simp) (hone u hu)).1 hslashed
    · rw [hclosed t (by simp)] at hdangle
      exact nomatch hdangle

/-- A consistent action excludes no value that the search includes. -/
theorem notIncluded_of_consistent (haction : action ≠ .only) (hinput : OneSign (filters input))
    (hstable : Stable (editedTokens input field value action) (parseSearch input).freeText)
    (h : Consistent input field value action) (hexclude : action = .exclude)
    (hmany : toLowerCase field ∉ singleValueSearchFields) :
    (⟨toLowerCase field, value, false⟩ : Filter) ∉ filters input := by
  intro hincluded
  have hts : ∀ t ∈ editedTokens input field value action, GoodField t.field :=
    goodField_editedTokens (isField_of_consistent h)
  have hread := (readsAgain_same ((readsAgain_iff hts (trim_freeText input)).mpr hstable)).1
  have hboth := h.oneSign
  rw [applySearchToken_eq haction, hread] at hboth
  have hkept : (⟨toLowerCase field, value, false⟩ : Filter)
      ∈ editedTokens input field value action := by
    rw [editedTokens, if_neg hmany]
    exact List.mem_append_left _ (List.mem_filter.mpr ⟨hincluded, by simp⟩)
  have htarget : target field value action = ⟨toLowerCase field, value, true⟩ := by
    rw [target, hexclude]
    rfl
  refine hboth ⟨hkept, htarget ▸ target_mem_editedTokens fun hmem => ?_⟩
  exact hinput _ _ ⟨hincluded, htarget ▸ hmem⟩

/-- **AN ACTION KEEPS THE SEARCH CONSISTENT EXACTLY WHERE IT IS ACCEPTED**: where the field is
    one, no value is excluded that the search includes, and what is printed is stable; it
    needs all of this where no token on the field takes in what follows it. -/
theorem consistent_iff (haction : action ≠ .only) (hinput : OneSign (filters input)) :
    (Accepted input field value action → Consistent input field value action)
      ∧ ((∀ t ∈ filters input, t.field = toLowerCase field → dangles t.value = false) →
        (Consistent input field value action ↔ Accepted input field value action)) := by
  refine ⟨consistent_of_accepted haction, fun hdangles => ⟨fun h => ?_,
    consistent_of_accepted haction⟩⟩
  have hstable := stable_of_consistent haction hdangles h
  exact ⟨isField_of_consistent h, notIncluded_of_consistent haction hinput hstable h, hstable⟩

end Actions

-- ── a value that is included and excluded ─────────────────────────────────────

instance (value : Text) : Decidable (Slashed value) :=
  inferInstanceAs (Decidable (needsQuotes value = false ∧ ['/', '/'] <+: value))

theorem stable_of_plain {ts : List Filter}
    (h : ∀ t ∈ ts, ¬ Slashed t.value ∧ dangles t.value = false) : Stable ts [] := by
  refine ⟨fun t ht => (h t ht).1, fun before t after hsplit hdangles => ?_, by simp, by simp,
    by simp [joinBy]⟩
  rw [(h t (by rw [hsplit]; simp)).2] at hdangles
  cases hdangles

def eventSearch : Text := "event:a".toList

theorem parse_eventSearch : filters eventSearch = [⟨"event".toList, "a".toList, false⟩]
    ∧ (parseSearch eventSearch).freeText = [] := by
  have hpieces : pieces cutter eventSearch = [eventSearch] :=
    pieces_whole ⟨by decide, ⟨false, false⟩, by decide⟩
  constructor
  · rw [filters, filters_eq, hpieces]
    decide
  · show trim (joinBy ' ' (segments eventSearch)) = []
    rw [segments_eq, hpieces]
    decide

theorem oneSign_eventSearch : OneSign (filters eventSearch) := by
  rintro field value ⟨-, hexcluded⟩
  rw [parse_eventSearch.1, List.mem_singleton] at hexcluded
  exact nomatch (congrArg Filter.negated hexcluded)

theorem lower_event : toLowerCase "event".toList = "event".toList := by decide

/-- An excluded value that the search included: both tokens are read. -/
theorem excluded_and_included :
    OneSign (filters eventSearch)
      ∧ ¬ Consistent eventSearch "event".toList "a".toList .exclude := by
  refine ⟨oneSign_eventSearch, fun h => ?_⟩
  have hedited : editedTokens eventSearch "event".toList "a".toList .exclude
      = [⟨"event".toList, "a".toList, false⟩, ⟨"event".toList, "a".toList, true⟩] := by
    rw [editedTokens, parse_eventSearch.1]
    decide
  have hread : filters (applySearchToken eventSearch "event".toList "a".toList .exclude)
      = [⟨"event".toList, "a".toList, false⟩, ⟨"event".toList, "a".toList, true⟩] := by
    rw [applySearchToken_eq (by decide), hedited, parse_eventSearch.2]
    refine (readsAgain_same ((readsAgain_iff ?_ rfl).mpr (stable_of_plain (by decide)))).1
    have hgood : GoodField "event".toList := ⟨by decide, by decide⟩
    exact List.forall_mem_cons.mpr ⟨hgood, List.forall_mem_cons.mpr ⟨hgood, by simp⟩⟩
  have hboth := h.oneSign
  rw [hread, lower_event] at hboth
  exact hboth (by decide)

/-- Another value of the field is included. -/
theorem consistent_other : Consistent eventSearch "event".toList "b".toList .include := by
  refine (consistent_iff (by decide) oneSign_eventSearch).1 ⟨by decide, ?_, ?_⟩
  · exact fun h => nomatch h
  · have hedited : editedTokens eventSearch "event".toList "b".toList .include
        = [⟨"event".toList, "a".toList, false⟩, ⟨"event".toList, "b".toList, false⟩] := by
      rw [editedTokens, parse_eventSearch.1]
      decide
    rw [hedited, parse_eventSearch.2]
    exact stable_of_plain (by decide)

end DevstackFilterActions
