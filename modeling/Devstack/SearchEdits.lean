import Devstack.SearchRoundTrip

/-! # Search edits — what a search that is printed anew keeps

    Every edit of a search prints filters in front of a free text and reads the result.
    Where the free text is kept, its pieces are free text again and nothing in front of
    it is (`kept_closed`), or one filter runs into it and another one has become its
    beginning (`kept_open`).  Where the filters on other fields are kept as well, each of
    them stands for itself (`others_kept`). -/

namespace DevstackSearchEdits

open DevstackSplitting DevstackSearchParser DevstackSearchRoundTrip

-- ── the same search ───────────────────────────────────────────────────────────

/-- The filters of a search. -/
def filters (input : Text) : List Filter := (parseSearch input).tokens.map (·.toFilter)

/-- Two searches with the same tokens and the same free text. -/
structure Same (x y : Text) : Prop where
  filters : filters x = filters y
  freeText : (parseSearch x).freeText = (parseSearch y).freeText

theorem text_eq (x : Text) : (parseSearch x).freeText
    = trim (joinBy ' ' ((pieces cutter x).filterMap freeSegment)) := by
  rw [← segments_eq]
  rfl

theorem same_iff {x y : Text} :
    Same x y ↔ (pieces cutter x).filterMap filterOf = (pieces cutter y).filterMap filterOf
      ∧ trim (joinBy ' ' ((pieces cutter x).filterMap freeSegment))
        = trim (joinBy ' ' ((pieces cutter y).filterMap freeSegment)) := by
  rw [← text_eq, ← text_eq, ← filters_eq, ← filters_eq]
  exact ⟨fun h => ⟨h.filters, h.freeText⟩, fun h => ⟨h.1, h.2⟩⟩

theorem Same.symm {x y : Text} (h : Same x y) : Same y x := ⟨h.filters.symm, h.freeText.symm⟩

theorem Same.trans {x y z : Text} (h : Same x y) (h' : Same y z) : Same x z :=
  ⟨h.filters.trans h'.filters, h.freeText.trans h'.freeText⟩

theorem goodField_of_mem {input : Text} {t : Filter} (h : t ∈ filters input) :
    GoodField t.field := by
  rw [filters, filters_eq] at h
  obtain ⟨p, -, hp⟩ := List.mem_filterMap.mp h
  exact goodField_of_filterOf hp

theorem trim_freeText (input : Text) :
    trim (parseSearch input).freeText = (parseSearch input).freeText :=
  trim_idem _

/-- What is printed of filters and a free text, and what is read of it. -/
theorem readsAgain_same {ts : List Filter} {freeText : Text} (h : ReadsAgain ts freeText) :
    filters (buildSearch ts freeText) = ts
      ∧ (parseSearch (buildSearch ts freeText)).freeText = freeText := by
  rw [filters, filters_eq]
  exact ⟨h.filters, h.freeText⟩

-- ── the names of fields ───────────────────────────────────────────────────────

theorem isField_toLowerCase {field : Text} (h : isField field = true) :
    isField (toLowerCase field) = true := by
  have hchar : ∀ {c : Char}, c.toNat < 128 →
      (isFieldStart c = true → isFieldStart (if c = '\u212a' then 'k' else c.toLower) = true)
        ∧ (isFieldChar c = true →
          isFieldChar (if c = '\u212a' then 'k' else c.toLower) = true) := by
    intro c hc
    rw [← Char.ofNat_toNat c]
    exact (by decide : ∀ n : Fin 128,
      (isFieldStart (Char.ofNat n) = true →
        isFieldStart (if Char.ofNat n = '\u212a' then 'k' else (Char.ofNat n).toLower) = true)
      ∧ (isFieldChar (Char.ofNat n) = true →
        isFieldChar (if Char.ofNat n = '\u212a' then 'k' else (Char.ofNat n).toLower) = true))
      ⟨c.toNat, hc⟩
  cases field with
  | nil => exact nomatch h
  | cons c field =>
      rw [isField, Bool.and_eq_true, List.all_eq_true] at h
      show (isFieldStart _ && (field.map _).all isFieldChar) = true
      rw [Bool.and_eq_true, List.all_eq_true]
      constructor
      · have hc := toNat_lt_of_isFieldChar (isFieldStart_spec h.1).1
        exact (hchar hc).1 h.1
      · intro d hd
        obtain ⟨c, hc, rfl⟩ := List.mem_map.mp hd
        exact (hchar (toNat_lt_of_isFieldChar (h.2 c hc))).2 (h.2 c hc)

theorem goodField_toLowerCase {field : Text} (h : isField (toLowerCase field) = true) :
    GoodField (toLowerCase field) := ⟨h, toLowerCase_idem field⟩

-- ── free text that is kept ────────────────────────────────────────────────────

theorem buildSearch_none {x : Text} (htrim : trim x = x) : buildSearch [] x = x := by
  by_cases hempty : x = []
  · rw [hempty, buildSearch_nil]
    rfl
  · rw [buildSearch_freeText [] htrim hempty]
    rfl

/-- A text that is the free text read of it. -/
theorem stable_of_kept {x : Text} (htrim : trim x = x) (h : trim (joinBy ' ' (segments x)) = x) :
    Stable [] x := by
  have hlength : x.length ≤ (joinBy ' ' (segments x)).length := by
    conv_lhs => rw [← h]
    exact length_trim_le _
  refine (readsAgain_nil htrim).mp ⟨?_, ?_⟩
  · rw [buildSearch_none htrim]
    exact no_filter_of_free fun p hp => (free_of_fixed hlength p hp).2.1
  · rwa [buildSearch_none htrim]

/-- Closed pieces in front of a free text that is kept are tokens. -/
theorem kept_closed {front : List Text} {x : Text}
    (hfront : ∀ p ∈ front, Closed cutter p ∧ Solid p) (htrim : trim x = x)
    (h : trim (joinBy ' ' (front.filterMap freeSegment ++ segments x)) = x) :
    (∀ p ∈ front, parseToken p ≠ none) ∧ Stable [] x := by
  have hfree := freePieces_of_closed hfront
  have hnil : front.filterMap freeSegment = [] := by
    cases hsegments : front.filterMap freeSegment with
    | nil => rfl
    | cons p ps =>
        rw [hsegments] at h hfree
        rw [List.cons_append, trim_joinBy (hfree p (List.mem_cons_self ..)).solid.begins] at h
        exact absurd h.symm (not_regress hfree (List.cons_ne_nil _ _) x)
  refine ⟨fun p hp hnone => ?_, stable_of_kept htrim (by rwa [hnil] at h)⟩
  have hsome := List.filterMap_eq_nil_iff.mp hnil p hp
  rw [segment_of_none hnone] at hsome
  exact nomatch hsome

/-- A filter that takes the first piece of the free text in: the free text is kept only
    if one piece in front is just that piece, and no other is free text. -/
theorem kept_open {init : List Text} {last x first rest : Text}
    (hinit : ∀ p ∈ init, Closed cutter p ∧ Solid p) (hlast : Solid last)
    (hopen : run cutter ⟨false, false⟩ last = some ⟨false, true⟩) (htrim : trim x = x)
    (hbegins : ∃ c cs, first = c :: cs ∧ isSpace c = false)
    (htake : takePiece cutter ⟨false, false⟩ x = (first, rest))
    (h : trim (joinBy ' ' ((init ++ (last ++ ' ' :: first) :: pieces cutter rest).filterMap
      freeSegment)) = x) :
    init.filterMap freeSegment = [first] ∧ parseToken first = none
      ∧ ∀ p ∈ pieces cutter rest, parseToken p = none := by
  rw [segments_open] at h
  have hfree := freePieces_of_closed hinit
  cases hinits : init.filterMap freeSegment with
  | nil =>
      -- a token in front, and what is left is shorter than the free text
      rw [hinits, List.nil_append] at h
      have htoken := open_is_token hlast hopen htrim hbegins htake h
      rw [segment_of_token htoken, Option.toList_none, List.nil_append, segments_eq] at h
      have happend := takePiece_append cutter ⟨false, false⟩ x
      rw [htake] at happend
      change first ++ rest = x at happend
      obtain ⟨c, cs, rfl, -⟩ := hbegins
      have hroom := room_filterMap_le length_segment_le (pieces cutter rest)
      have hpieces := room_pieces_le (k := cutter) rest
      have hjoin := length_joinBy ' ' ((pieces cutter rest).filterMap freeSegment)
      have hlength := length_trim_le (joinBy ' ' ((pieces cutter rest).filterMap freeSegment))
      rw [h, ← happend, List.length_append, List.length_cons] at hlength
      omega
  | cons p ps =>
      rw [hinits] at h hfree
      have hp := hfree p (List.mem_cons_self ..)
      rw [List.append_assoc, List.cons_append, ← List.append_assoc,
        trim_joinBy hp.solid.begins] at h
      obtain ⟨rfl, rfl, -, hnone⟩ := alone_before_open hlast hopen htake hp
        (fun q hq => hfree q (List.mem_cons_of_mem _ hq)) h.symm
      refine ⟨rfl, hp.free, fun q hq => ?_⟩
      have hfilter := List.filterMap_eq_nil_iff.mp hnone q hq
      exact Option.map_eq_none_iff.mp hfilter

/-- Where the free text is kept, it has no tokens. -/
theorem free_of_kept {ts : List Filter} {freeText : Text} (hts : ∀ t ∈ ts, GoodField t.field)
    (htrim : trim freeText = freeText)
    (h : (parseSearch (buildSearch ts freeText)).freeText = freeText) :
    ∀ p ∈ pieces cutter freeText, parseToken p = none := by
  change trim (joinBy ' ' (segments _)) = freeText at h
  by_cases hempty : freeText = []
  · subst hempty
    simp
  by_cases hne : ts = []
  · rw [hne, buildSearch_none htrim] at h
    exact (stable_of_kept htrim h).noToken
  rw [segments_eq] at h
  rcases printed_cases hts hne htrim hempty with ⟨front, -, hfront, hpieces⟩
    | ⟨init, last, first, rest, hinit, hlast, hopen, -, hbegins, htake, hpieces⟩
  · rw [hpieces, List.filterMap_append, ← segments_eq] at h
    exact (kept_closed hfront htrim h).2.noToken
  · rw [hpieces] at h
    obtain ⟨-, hfirst, hrest⟩ := kept_open hinit hlast hopen htrim hbegins htake h
    obtain ⟨c, cs, hcons, -⟩ := hbegins
    rw [pieces_of_take (by rw [hcons]; exact List.cons_ne_nil _ _) htake]
    exact List.forall_mem_cons.mpr ⟨hfirst, hrest⟩

-- ── filters on other fields ───────────────────────────────────────────────────

/-- The filters on other fields. -/
def others (field : Text) (ts : List Filter) : List Filter :=
  ts.filter (fun t => decide (t.field ≠ field))

theorem others_cons_of_ne {field : Text} {t : Filter} (h : t.field ≠ field) (ts : List Filter) :
    others field (t :: ts) = t :: others field ts :=
  List.filter_cons_of_pos (by simpa using h)

theorem others_cons_of_eq {field : Text} {t : Filter} (h : t.field = field) (ts : List Filter) :
    others field (t :: ts) = others field ts :=
  List.filter_cons_of_neg (by simpa using h)

theorem others_append (field : Text) (ts us : List Filter) :
    others field (ts ++ us) = others field ts ++ others field us := List.filter_append ts us

theorem length_others_append (field : Text) (ts us : List Filter) :
    (others field (ts ++ us)).length = (others field ts).length + (others field us).length := by
  rw [others_append, List.length_append]

/-- A token that begins with a printed filter is on its field. -/
theorem field_of_front {t m : Filter} (ht : GoodField t.field) {q : Text}
    (h : filterOf (formatToken t ++ q) = some m) : m.field = t.field := by
  rw [formatToken_eq, List.append_assoc, List.append_assoc, List.cons_append, filterOf,
    parseToken_eq ht] at h
  split at h
  · cases h
  · rw [Option.map_map, Option.map_eq_some_iff] at h
    obtain ⟨value, -, rfl⟩ := h
    rfl

/-- A printed filter in front of a text: a piece of its own, or one with the first piece of
    the text. -/
theorem pieces_format {t : Filter} (ht : GoodField t.field) {y : Text}
    (hy : ∃ c cs, y = c :: cs ∧ isSpace c = false) :
    (dangles t.value = false ∧ pieces cutter (formatToken t ++ ' ' :: y)
        = formatToken t :: pieces cutter y)
      ∨ (dangles t.value = true ∧ ∃ p rest, p ≠ [] ∧ takePiece cutter ⟨false, false⟩ y = (p, rest)
        ∧ pieces cutter (formatToken t ++ ' ' :: y)
          = (formatToken t ++ ' ' :: p) :: pieces cutter rest) := by
  have hrun := run_format ht
  cases hdangles : dangles t.value with
  | false =>
      rw [hdangles] at hrun
      exact Or.inl ⟨rfl, pieces_closed ⟨(solid_format ht).ne_nil, hrun⟩ isWhitespace_blank y⟩
  | true =>
      rw [hdangles] at hrun
      have hopen : run cutter cutter.start (formatToken t ++ [' ']) = some cutter.start :=
        run_open hrun []
      have hmerged := pieces_run (by simp) hopen y
      rw [List.append_assoc, List.singleton_append, List.append_assoc, List.singleton_append]
        at hmerged
      obtain ⟨c, cs, rfl, hc⟩ := hy
      have hblank : cutter.blank c = false := isWhitespace_of_not_space hc
      obtain ⟨p, rest, htake, -, hends⟩ := takePiece_first hblank cs
      have hne : p ≠ [] := hends.elim (fun h => h.1.1) (fun h => h.1.1)
      rw [htake] at hmerged
      exact Or.inr ⟨rfl, p, rest, hne, htake, hmerged⟩

theorem joinBy_begins {p : Text} (hp : Begins p) (ps : List Text) :
    ∃ c cs, joinBy ' ' (p :: ps) = c :: cs ∧ isSpace c = false := by
  obtain ⟨c, cs, rfl, hc, -⟩ := hp
  cases ps with
  | nil => exact ⟨c, cs, rfl, hc⟩
  | cons q ps => exact ⟨c, _, joinBy_cons _ _ (List.cons_ne_nil _ _), hc⟩

theorem begins_build {ts : List Filter} {freeText : Text} (hts : ∀ t ∈ ts, GoodField t.field)
    (htrim : trim freeText = freeText) (hne : ts ≠ [] ∨ freeText ≠ []) :
    ∃ c cs, buildSearch ts freeText = c :: cs ∧ isSpace c = false := by
  cases ts with
  | nil =>
      rw [buildSearch_none htrim]
      obtain ⟨c, cs, hcons, hc, -⟩ :=
        (trimmed_cases freeText).resolve_left (by rw [htrim]; exact hne.resolve_left (by simp))
      exact ⟨c, cs, htrim ▸ hcons, hc⟩
  | cons t ts =>
      exact joinBy_begins (solid_format (hts t (List.mem_cons_self ..))).begins _

theorem filterMap_cons_toList (f : Text → Option Filter) (p : Text) (ps : List Text) :
    (p :: ps).filterMap f = (f p).toList ++ ps.filterMap f := by
  cases h : f p with
  | none => rw [List.filterMap_cons_none h]; rfl
  | some a => rw [List.filterMap_cons_some h]; rfl

/-- One more filter in front of what is printed. -/
theorem filters_cons {t : Filter} {ts : List Filter} {freeText : Text}
    (hts : ∀ u ∈ t :: ts, GoodField u.field) (htrim : trim freeText = freeText)
    (hrest : ts ≠ [] ∨ freeText ≠ []) :
    (dangles t.value = false ∧ filters (buildSearch (t :: ts) freeText)
        = (filterOf (formatToken t)).toList ++ filters (buildSearch ts freeText))
      ∨ (dangles t.value = true ∧ ∃ p more, filters (buildSearch ts freeText)
          = (filterOf p).toList ++ more
        ∧ filters (buildSearch (t :: ts) freeText)
          = (filterOf (formatToken t ++ ' ' :: p)).toList ++ more) := by
  obtain ⟨ht, hts⟩ := List.forall_mem_cons.mp hts
  rw [filters, filters, filters_eq, filters_eq, buildSearch_cons t (by rwa [htrim])]
  rcases pieces_format ht (begins_build hts htrim hrest) with ⟨hclosed, hpieces⟩
    | ⟨hopen, p, rest, hne, htake, hpieces⟩
  · exact Or.inl ⟨hclosed, by rw [hpieces, filterMap_cons_toList]⟩
  · refine Or.inr ⟨hopen, p, (pieces cutter rest).filterMap filterOf, ?_, ?_⟩
    · rw [pieces_of_take hne htake, filterMap_cons_toList]
    · rw [hpieces, filterMap_cons_toList]

theorem filters_one {t : Filter} (ht : GoodField t.field) :
    filters (buildSearch [t] []) = (filterOf (formatToken t)).toList := by
  rw [buildSearch_one, filters, filters_eq,
    pieces_whole ⟨(solid_format ht).ne_nil, _, run_format ht⟩, filterMap_cons_toList]
  exact List.append_nil _

/-- What begins with a printed filter is a filter on another field only if that is. -/
theorem length_others_front {t : Filter} (ht : GoodField t.field) (field q : Text) :
    (others field (filterOf (formatToken t ++ q)).toList).length ≤ (others field [t]).length := by
  cases hfilter : filterOf (formatToken t ++ q) with
  | none => exact Nat.zero_le _
  | some m =>
      simp only [others, Option.toList_some, List.filter_cons, field_of_front ht hfilter]
      split <;> exact le_rfl

section Others

variable {field : Text} {freeText : Text} (htrim : trim freeText = freeText)
  (hfree : ∀ p ∈ pieces cutter freeText, parseToken p = none)

include htrim hfree

theorem filters_none : filters (buildSearch [] freeText) = [] := by
  rw [buildSearch_none htrim, filters, filters_eq, no_filter_of_free hfree]

/-- What is printed reads as no more filters on other fields. -/
theorem length_others_le {ts : List Filter} (hts : ∀ t ∈ ts, GoodField t.field) :
    (others field (filters (buildSearch ts freeText))).length ≤ (others field ts).length := by
  induction ts with
  | nil =>
      rw [filters_none htrim hfree]
  | cons t ts ih =>
      have ht := hts t (List.mem_cons_self ..)
      have ih := ih (fun u hu => hts u (List.mem_cons_of_mem _ hu))
      have hclosed := length_others_front ht field []
      rw [List.append_nil] at hclosed
      rw [← List.singleton_append, length_others_append]
      by_cases hlast : ts = [] ∧ freeText = []
      · obtain ⟨rfl, rfl⟩ := hlast
        rw [List.append_nil, filters_one ht]
        exact hclosed
      · rcases filters_cons hts htrim (not_and_or.mp hlast) with ⟨-, hfilters⟩
          | ⟨-, p, more, hmore, hfilters⟩
        · rw [List.singleton_append, hfilters, length_others_append]
          exact Nat.add_le_add hclosed ih
        · have hmerged := length_others_front ht field (' ' :: p)
          rw [hmore, length_others_append] at ih
          rw [List.singleton_append, hfilters, length_others_append]
          omega

/-- A filter with something behind it that it does not take in: it reads as no part of an
    address, and the filters behind it are read again. -/
theorem others_closed {u : Filter} {ts : List Filter} (hts : ∀ t ∈ u :: ts, GoodField t.field)
    (h : others field ((filterOf (formatToken u)).toList ++ filters (buildSearch ts freeText))
      = others field (u :: ts)) :
    (u.field ≠ field → ¬ Slashed u.value)
      ∧ others field (filters (buildSearch ts freeText)) = others field ts := by
  obtain ⟨hu, htail⟩ := List.forall_mem_cons.mp hts
  have hbound : (others field (filters (buildSearch ts freeText))).length
      ≤ (others field ts).length := length_others_le htrim hfree htail
  rw [others_append] at h
  by_cases hfield : u.field = field
  · have hle := length_others_front hu field []
    rw [List.append_nil, others_cons_of_eq hfield] at hle
    have hnone := List.length_eq_zero_iff.mp (Nat.le_zero.mp hle)
    rw [others_cons_of_eq hfield, hnone, List.nil_append] at h
    exact ⟨fun hne => absurd hfield hne, h⟩
  · rw [others_cons_of_ne hfield] at h
    by_cases hslashed : Slashed u.value
    · rw [filterOf_slashed hu hslashed, Option.toList_none] at h
      have hlength := congrArg List.length h
      simp only [others, List.filter_nil, List.nil_append, List.length_cons] at hlength hbound
      omega
    · rw [(filterOf_format hu hslashed).1, Option.toList_some, others_cons_of_ne hfield] at h
      exact ⟨fun _ => hslashed, (List.cons.inj h).2⟩

/-- A filter that takes in what is behind it is not read again, and no other one in its
    place. -/
theorem others_open {u : Filter} {ts more : List Filter} {p : Text}
    (hts : ∀ t ∈ u :: ts, GoodField t.field) (hopen : dangles u.value = true)
    (hmore : filters (buildSearch ts freeText) = (filterOf p).toList ++ more)
    (hfield : u.field ≠ field) :
    others field ((filterOf (formatToken u ++ ' ' :: p)).toList ++ more)
      ≠ others field (u :: ts) := by
  obtain ⟨hu, htail⟩ := List.forall_mem_cons.mp hts
  have hbound : (others field (filters (buildSearch ts freeText))).length
      ≤ (others field ts).length := length_others_le htrim hfree htail
  rw [hmore, length_others_append] at hbound
  intro h
  rw [others_append, others_cons_of_ne hfield] at h
  cases hfilter : filterOf (formatToken u ++ ' ' :: p) with
  | none =>
      rw [hfilter, Option.toList_none] at h
      have hlength := congrArg List.length h
      simp only [others, List.filter_nil, List.nil_append, List.length_cons] at hlength hbound
      omega
  | some m =>
      have hm : m.field ≠ field := by
        rw [field_of_front hu hfilter]
        exact hfield
      rw [hfilter, Option.toList_some, others_cons_of_ne hm] at h
      rw [(List.cons.inj h).1] at hfilter
      exact absurd hfilter (filterOf_open hu hopen p)

/-- What is read of the first filter, and of those behind it. -/
theorem others_step {u : Filter} {ts : List Filter} (hts : ∀ t ∈ u :: ts, GoodField t.field)
    (hdangles : u.field = field → ts ≠ [] → dangles u.value = false)
    (h : others field (filters (buildSearch (u :: ts) freeText)) = others field (u :: ts)) :
    (u.field ≠ field → ¬ Slashed u.value ∧ (dangles u.value = true → ts = [] ∧ freeText = []))
      ∧ (ts ≠ [] → others field (filters (buildSearch ts freeText)) = others field ts) := by
  have hu := hts u (List.mem_cons_self ..)
  by_cases hlast : ts = [] ∧ freeText = []
  · obtain ⟨rfl, rfl⟩ := hlast
    refine ⟨fun hfield => ⟨fun hslashed => ?_, fun _ => ⟨rfl, rfl⟩⟩, fun hne => absurd rfl hne⟩
    rw [filters_one hu, filterOf_slashed hu hslashed, others_cons_of_ne hfield] at h
    exact nomatch h
  · rcases filters_cons hts htrim (not_and_or.mp hlast) with ⟨hclosed, hfilters⟩
      | ⟨hopen, p, more, hmore, hfilters⟩
    · rw [hfilters] at h
      obtain ⟨hslashed, hrest⟩ := others_closed htrim hfree hts h
      refine ⟨fun hfield => ⟨hslashed hfield, fun hdangle => ?_⟩, fun _ => hrest⟩
      exact absurd (hclosed.symm.trans hdangle) Bool.false_ne_true
    · rw [hfilters] at h
      by_cases hfield : u.field = field
      · refine ⟨fun hne => absurd hfield hne, fun hne => ?_⟩
        exact absurd ((hdangles hfield hne).symm.trans hopen) Bool.false_ne_true
      · exact absurd h (others_open htrim hfree hts hopen hmore hfield)

/-- **EACH FOR ITSELF**: where the filters on other fields are read again, none of them
    reads as part of an address, and none takes in what follows it. -/
theorem others_kept {ts : List Filter} (hts : ∀ t ∈ ts, GoodField t.field)
    (hdangles : ∀ before t after, ts = before ++ t :: after → t.field = field → after ≠ [] →
      dangles t.value = false)
    (h : others field (filters (buildSearch ts freeText)) = others field ts) :
    ∀ before t after, ts = before ++ t :: after → t.field ≠ field →
      ¬ Slashed t.value ∧ (dangles t.value = true → after = [] ∧ freeText = []) := by
  induction ts with
  | nil =>
      intro before t after hsplit
      exact absurd hsplit.symm (by simp)
  | cons u ts ih =>
      obtain ⟨hfirst, hrest⟩ := others_step htrim hfree hts (hdangles [] u ts rfl) h
      intro before t after hsplit hfield
      cases before with
      | nil =>
          obtain ⟨rfl, rfl⟩ := List.cons.inj hsplit
          exact hfirst hfield
      | cons v before =>
          have hsplit := (List.cons.inj hsplit).2
          have hne : ts ≠ [] := by simp [hsplit]
          exact ih (fun t ht => hts t (List.mem_cons_of_mem _ ht))
            (fun before t after hsplit => hdangles (u :: before) t after (by rw [hsplit]; rfl))
            (hrest hne) before t after hsplit hfield

end Others

-- ── filters that stand for themselves ─────────────────────────────────────────

/-- No filter takes in what follows it. -/
def Apart (ts : List Filter) (freeText : Text) : Prop :=
  ∀ before t after, ts = before ++ t :: after → dangles t.value = true →
    after = [] ∧ freeText = []

theorem Apart.tail {t : Filter} {ts : List Filter} {freeText : Text}
    (h : Apart (t :: ts) freeText) : Apart ts freeText :=
  fun before u after hsplit => h (t :: before) u after (by rw [hsplit]; rfl)

theorem pieces_apart {ts : List Filter} {freeText : Text} (hts : ∀ t ∈ ts, GoodField t.field)
    (htrim : trim freeText = freeText) (h : Apart ts freeText) :
    pieces cutter (buildSearch ts freeText) = ts.map formatToken ++ pieces cutter freeText := by
  induction ts with
  | nil =>
      rw [buildSearch_none htrim]
      rfl
  | cons t ts ih =>
      obtain ⟨ht, hts⟩ := List.forall_mem_cons.mp hts
      by_cases hlast : ts = [] ∧ freeText = []
      · obtain ⟨rfl, rfl⟩ := hlast
        rw [buildSearch_one, pieces_whole ⟨(solid_format ht).ne_nil, _, run_format ht⟩, pieces_nil]
        rfl
      · have hrest := not_and_or.mp hlast
        rw [buildSearch_cons t (by rwa [htrim])]
        rcases pieces_format ht (begins_build hts htrim hrest) with ⟨-, hpieces⟩ | ⟨hopen, -⟩
        · rw [hpieces, ih hts h.tail]
          rfl
        · exact absurd (h [] t ts rfl hopen) hlast

theorem closed_of_apart {ts : List Filter} {freeText : Text} (hts : ∀ t ∈ ts, GoodField t.field)
    (h : Apart ts freeText) (hempty : freeText ≠ []) :
    ∀ p ∈ ts.map formatToken, Closed cutter p ∧ Solid p := by
  intro p hp
  obtain ⟨t, ht, rfl⟩ := List.mem_map.mp hp
  have hsolid := solid_format (hts t ht)
  have hrun := run_format (hts t ht)
  obtain ⟨before, after, hsplit⟩ := List.append_of_mem ht
  cases hdangles : dangles t.value with
  | true => exact absurd (h before t after hsplit hdangles).2 hempty
  | false =>
      rw [hdangles] at hrun
      exact ⟨⟨hsolid.ne_nil, hrun⟩, hsolid⟩

/-- Filters that take in nothing, and whose free text is kept, are read again. -/
theorem stable_of_apart {ts : List Filter} {freeText : Text} (hts : ∀ t ∈ ts, GoodField t.field)
    (htrim : trim freeText = freeText) (hapart : Apart ts freeText)
    (h : (parseSearch (buildSearch ts freeText)).freeText = freeText) : Stable ts freeText := by
  have hpieces := pieces_apart hts htrim hapart
  change trim (joinBy ' ' (segments _)) = freeText at h
  have hkept : (∀ p ∈ ts.map formatToken, parseToken p ≠ none) ∧ Stable [] freeText := by
    by_cases hempty : freeText = []
    · subst hempty
      rw [segments_eq] at h
      have htokens := tokens_of_no_text (printed_alone hts) h
      rw [hpieces, pieces_nil, List.append_nil] at htokens
      exact ⟨htokens, stable_of_kept htrim (by rw [segments_eq, pieces_nil]; rfl)⟩
    · rw [segments_eq, hpieces, List.filterMap_append, ← segments_eq] at h
      exact kept_closed (closed_of_apart hts hapart hempty) htrim h
  refine ⟨fun t ht hslashed => ?_, hapart, hkept.2.noToken, hkept.2.noQuotes, hkept.2.blanks⟩
  have htoken := hkept.1 _ (List.mem_map_of_mem ht)
  rw [parseToken_format (hts t ht), if_pos hslashed] at htoken
  exact htoken rfl

/-- A last filter that takes in the first piece of the free text: the free text is kept only
    if another filter reads as that piece, and the last filter is not read again. -/
theorem kept_last {ts : List Filter} {t : Filter} {freeText : Text}
    (hts : ∀ u ∈ ts ++ [t], GoodField u.field) (htrim : trim freeText = freeText)
    (hempty : freeText ≠ []) (hclosed : ∀ u ∈ ts, dangles u.value = false)
    (hopen : dangles t.value = true)
    (h : (parseSearch (buildSearch (ts ++ [t]) freeText)).freeText = freeText) :
    (∃ u ∈ ts, Slashed u.value)
      ∧ (t ∈ filters (buildSearch (ts ++ [t]) freeText) → t ∈ ts) := by
  have ht := hts t (by simp)
  have hgood : ∀ u ∈ ts, GoodField u.field := fun u hu => hts u (by simp [hu])
  have hfront : ∀ p ∈ ts.map formatToken, Closed cutter p ∧ Solid p :=
    closed_of_apart hgood (fun before u after hsplit hdangles => by
      rw [hclosed u (by rw [hsplit]; simp)] at hdangles
      cases hdangles) hempty
  obtain ⟨c, cs, hcons, hc⟩ :=
    begins_build (List.forall_mem_nil (fun u : Filter => GoodField u.field)) htrim (Or.inr hempty)
  rw [buildSearch_none htrim] at hcons
  have hbuild : buildSearch (ts ++ [t]) freeText
      = lead ' ' (ts.map formatToken) (formatToken t ++ ' ' :: freeText) := by
    rw [buildSearch_freeText _ htrim hempty, List.map_append, lead_append]
    rfl
  have hrun := run_format ht
  rw [hopen] at hrun
  rcases pieces_format ht ⟨c, cs, hcons, hc⟩ with ⟨hshut, -⟩ | ⟨-, first, rest, hne, htake, hlast⟩
  · exact absurd (hshut.symm.trans hopen) Bool.false_ne_true
  have hpieces : pieces cutter (buildSearch (ts ++ [t]) freeText)
      = ts.map formatToken ++ (formatToken t ++ ' ' :: first) :: pieces cutter rest := by
    rw [hbuild, pieces_lead isWhitespace_blank (fun p hp => (hfront p hp).1), hlast]
  have hbegins : ∃ c cs, first = c :: cs ∧ isSpace c = false := by
    obtain ⟨d, ds, rfl⟩ := List.exists_cons_of_ne_nil hne
    have happend := takePiece_append cutter ⟨false, false⟩ freeText
    rw [htake, hcons] at happend
    exact ⟨d, ds, rfl, (List.cons.inj happend).1 ▸ hc⟩
  change trim (joinBy ' ' (segments _)) = freeText at h
  rw [segments_eq, hpieces] at h
  obtain ⟨hfree, -, hrest⟩ :=
    kept_open hfront (solid_format ht) hrun htrim hbegins htake h
  constructor
  · have hmem : first ∈ (ts.map formatToken).filterMap freeSegment := by
      rw [hfree]
      exact List.mem_singleton.mpr rfl
    obtain ⟨p, hp, hsegment⟩ := List.mem_filterMap.mp hmem
    obtain ⟨u, hu, rfl⟩ := List.mem_map.mp hp
    refine ⟨u, hu, by_contra fun hslashed => ?_⟩
    rw [segment_of_token (filterOf_format (hgood u hu) hslashed).2] at hsegment
    cases hsegment
  · rw [filters, filters_eq, hpieces]
    intro hmem
    obtain ⟨p, hp, hfilter⟩ := List.mem_filterMap.mp hmem
    rcases List.mem_append.mp hp with hp | hp
    · obtain ⟨u, hu, rfl⟩ := List.mem_map.mp hp
      rw [filterOf, parseToken_format (hgood u hu)] at hfilter
      split at hfilter
      · cases hfilter
      · rw [← Option.some.inj hfilter]
        exact hu
    · rcases List.mem_cons.mp hp with rfl | hp
      · exact absurd hfilter (filterOf_open ht hopen first)
      · rw [filterOf, hrest p hp] at hfilter
        cases hfilter

end DevstackSearchEdits
