import Devstack.SearchParser

/-! # Search round trip — a search that is printed and read again

    `serializeSearch` prints the tokens and then the free text.  The tokens are printed
    with quotes where they need them, the free text as it is.

    * `pieces_build`: while no printed token takes the blank behind it in, what is read
      again are the printed tokens and the pieces of the free text;
    * `first_is_token`: a search that is read again as it was has no free text in front
      of its tokens.  Free text in front would have to begin the free text at the end,
      and with it what is read from there, and so on (`not_regress`);
    * `roundTrip_iff`: so a search is read again as it was exactly when its tokens and
      its free text are `Stable`. -/

namespace DevstackSearchRoundTrip

open DevstackSplitting DevstackSearchParser

-- ── solid texts ───────────────────────────────────────────────────────────────

/-- The text begins with neither white space nor a quote. -/
def Begins (p : Text) : Prop := ∃ c cs, p = c :: cs ∧ isSpace c = false ∧ c ≠ '"'

/-- And it ends with no white space. -/
structure Solid (p : Text) : Prop where
  begins : Begins p
  ends : trimEnd p = p

theorem Begins.append {p : Text} (h : Begins p) (q : Text) : Begins (p ++ q) := by
  obtain ⟨c, cs, rfl, hc⟩ := h
  exact ⟨c, cs ++ q, rfl, hc⟩

theorem Begins.freeSegment {p : Text} (h : Begins p) (hnone : parseToken p = none) :
    freeSegment p = some p := by
  obtain ⟨c, cs, rfl, -, hquote⟩ := h
  rw [segment_of_none hnone, decodeFreeTextSegment, parseQuotedValue_of_not_quoted,
    Option.getD_none]
  rintro ⟨rest, hrest⟩
  exact hquote (List.cons.inj hrest).1.symm

theorem Solid.ne_nil {p : Text} (h : Solid p) : p ≠ [] := by
  obtain ⟨c, cs, rfl, -⟩ := h.begins
  exact List.cons_ne_nil _ _

theorem Solid.append {p q : Text} (hp : Solid p) (hq : Solid q) : Solid (p ++ ' ' :: q) := by
  refine ⟨hp.begins.append _, ?_⟩
  have hends : trimEnd (' ' :: q) = ' ' :: q := by
    rw [← List.singleton_append, trimEnd_append, hq.ends, if_neg hq.ne_nil]
  rw [trimEnd_append, hends, if_neg (List.cons_ne_nil _ _)]

theorem solid_format {t : Filter} (h : GoodField t.field) : Solid (formatToken t) := by
  rw [formatToken_eq]
  constructor
  · cases hneg : t.negated with
    | true => exact ⟨'-', _, rfl, by decide, by decide⟩
    | false =>
        have hfield := h.isField
        have hmem := mem_field hfield
        cases hcs : t.field with
        | nil =>
            rw [hcs] at hfield
            exact nomatch hfield
        | cons c cs =>
            obtain ⟨hspace, -, hquote, -⟩ := hmem c (by rw [hcs]; exact List.mem_cons_self ..)
            exact ⟨c, _, rfl, hspace, hquote⟩
  · have hvalue : trimEnd (serializeValue t.value) = serializeValue t.value := by
      rw [trimEnd, List.rdropWhile_eq_self_iff]
      intro hne
      cases hquotes : needsQuotes t.value with
      | true =>
          simp only [serializeValue, hquotes, if_true]
          rw [List.getLast_cons (by simp), List.getLast_append_singleton]
          decide
      | false =>
          have hlast := (not_quoted_of_plain hquotes).2 _ (List.getLast_mem
            (not_quoted_of_plain hquotes).1)
          simp only [serializeValue, hquotes, Bool.false_eq_true, if_false]
          simp [hlast.1]
    have hne : serializeValue t.value ≠ [] := by
      cases hquotes : needsQuotes t.value with
      | true => simp [serializeValue, hquotes]
      | false =>
          rw [serializeValue, if_neg (by simp [hquotes])]
          exact (not_quoted_of_plain hquotes).1
    have hcolon : trimEnd (':' :: serializeValue t.value) = ':' :: serializeValue t.value := by
      rw [trimEnd_cons (by decide), hvalue]
    rw [← List.append_assoc, trimEnd_append, hcolon, if_neg (List.cons_ne_nil _ _)]

theorem trimEnd_blank (x : Text) :
    trimEnd (' ' :: x) = if trimEnd x = [] then [] else ' ' :: trimEnd x := by
  rw [← List.singleton_append, trimEnd_append]
  rfl

theorem trimEnd_solid_append {p : Text} (hp : Solid p) (x : Text) :
    trimEnd (p ++ ' ' :: x) = if trimEnd x = [] then p else p ++ ' ' :: trimEnd x := by
  rw [trimEnd_append, trimEnd_blank]
  by_cases hx : trimEnd x = []
  · rw [if_pos hx, if_pos rfl, if_pos hx, hp.ends]
  · rw [if_neg hx, if_neg (List.cons_ne_nil _ _), if_neg hx]

theorem joinBy_ne_nil {p : Text} (hp : Solid p) (ps : List Text) : joinBy ' ' (p :: ps) ≠ [] := by
  cases ps with
  | nil => exact hp.ne_nil
  | cons q ps =>
      rw [joinBy_cons _ _ (List.cons_ne_nil _ _)]
      simp

/-- Solid texts with a blank after each, before a text: without the white space at the
    end. -/
theorem trimEnd_lead {ps : List Text} (hps : ∀ p ∈ ps, Solid p) (hne : ps ≠ []) (x : Text) :
    trimEnd (lead ' ' ps x)
      = if trimEnd x = [] then joinBy ' ' ps else lead ' ' ps (trimEnd x) := by
  induction ps with
  | nil => exact absurd rfl hne
  | cons p ps ih =>
      have hp := hps p (List.mem_cons_self ..)
      rw [lead_cons, trimEnd_solid_append hp]
      cases ps with
      | nil => rfl
      | cons q ps =>
          have hq := hps q (by simp)
          rw [ih (fun p hp => hps p (List.mem_cons_of_mem _ hp)) (List.cons_ne_nil _ _)]
          by_cases hx : trimEnd x = []
          · rw [if_pos hx, if_neg (joinBy_ne_nil hq ps), if_pos hx,
              joinBy_cons _ _ (List.cons_ne_nil _ _)]
          · rw [if_neg hx, if_neg (by rw [lead_cons]; simp), if_neg hx]
            rfl

/-- Solid texts joined with others, without the white space at the end. -/
theorem trimEnd_joinBy {ps : List Text} (hps : ∀ p ∈ ps, Solid p) (hne : ps ≠ [])
    (qs : List Text) :
    trimEnd (joinBy ' ' (ps ++ qs))
      = if trimEnd (joinBy ' ' qs) = [] then joinBy ' ' ps
        else lead ' ' ps (trimEnd (joinBy ' ' qs)) := by
  cases qs with
  | nil =>
      have hjoin : trimEnd (lead ' ' ps []) = joinBy ' ' ps := trimEnd_lead hps hne []
      rw [List.append_nil, ← hjoin, trimEnd_idem]
      rfl
  | cons q qs => rw [joinBy_append _ _ (List.cons_ne_nil _ _), trimEnd_lead hps hne]

-- ── free text in front of itself ──────────────────────────────────────────────

/-- A piece of free text as it stands: what follows a blank after it is read as if it
    stood alone. -/
structure FreePiece (p : Text) : Prop where
  solid : Solid p
  closed : Closed cutter p
  free : parseToken p = none

theorem isWhitespace_blank : cutter.blank ' ' = true := rfl

theorem segments_lead {ps : List Text} (hps : ∀ p ∈ ps, FreePiece p) (x : Text) :
    segments (lead ' ' ps x) = ps ++ segments x := by
  rw [segments_eq, segments_eq, pieces_lead isWhitespace_blank (fun p hp => (hps p hp).closed),
    List.filterMap_append]
  refine congrArg (· ++ _) ?_
  induction ps with
  | nil => rfl
  | cons p ps ih =>
      have hp := hps p (List.mem_cons_self ..)
      rw [List.filterMap_cons_some (hp.solid.begins.freeSegment hp.free),
        ih (fun p hp => hps p (List.mem_cons_of_mem _ hp))]

theorem segments_joinBy {ps : List Text} (hps : ∀ p ∈ ps, FreePiece p) :
    segments (joinBy ' ' ps) = ps := by
  rcases List.eq_nil_or_concat ps with rfl | ⟨init, last, rfl⟩
  · rw [segments_eq, joinBy, pieces_nil]
    rfl
  · rw [List.concat_eq_append] at hps ⊢
    have hlast := hps last (by simp)
    rw [joinBy_concat, segments_lead (fun p hp => hps p (List.mem_append_left _ hp)), segments_eq,
      pieces_whole hlast.closed.whole,
      List.filterMap_cons_some (hlast.solid.begins.freeSegment hlast.free), List.filterMap_nil]

/-- No text is free text in front of what is read of the text. -/
theorem not_regress {ps : List Text} (hps : ∀ p ∈ ps, FreePiece p) (hne : ps ≠ []) (x : Text) :
    x ≠ trimEnd (joinBy ' ' (ps ++ segments x)) := by
  induction hn : x.length using Nat.strongRecOn generalizing x with
  | _ n ih =>
      intro hx
      have hsolid : ∀ p ∈ ps, Solid p := fun p hp => (hps p hp).solid
      rw [trimEnd_joinBy hsolid hne] at hx
      by_cases hrest : trimEnd (joinBy ' ' (segments x)) = []
      · -- nothing is read of it but the free text that it is
        rw [if_pos hrest] at hx
        rw [hx, segments_joinBy hps] at hrest
        have hjoin := trimEnd_joinBy hsolid hne []
        rw [List.append_nil, hrest] at hjoin
        obtain ⟨p, ps, rfl⟩ := List.exists_cons_of_ne_nil hne
        exact joinBy_ne_nil (hsolid p (List.mem_cons_self ..)) ps hjoin.symm
      · -- what stands behind the free text is such a text again
        rw [if_neg hrest] at hx
        have hsegments := segments_lead hps (trimEnd (joinBy ' ' (segments x)))
        rw [← hx] at hsegments
        refine ih (trimEnd (joinBy ' ' (segments x))).length ?_ _ rfl ?_
        · rw [← hn]
          obtain ⟨p, ps, rfl⟩ := List.exists_cons_of_ne_nil hne
          have hlength := congrArg List.length hx
          rw [length_lead, room_cons] at hlength
          omega
        · rw [← hsegments]

/-- A text that is what is read of it has free text only, each piece as it stands. -/
theorem free_of_fixed {x : Text} (h : x.length ≤ (joinBy ' ' (segments x)).length) :
    ∀ p ∈ pieces cutter x, freeSegment p = some p ∧ parseToken p = none
      ∧ parseQuotedValue p = none := by
  rw [segments_eq] at h
  intro p hp
  obtain ⟨d, hd, hlength⟩ := kept_of_length length_segment_le ' ' h p hp
  obtain ⟨rfl, hfree, hquoted⟩ := segment_full hd hlength
  exact ⟨hd, hfree, hquoted⟩

-- ── what is printed ───────────────────────────────────────────────────────────

/-- The printed filters: pieces that are over, and a last one that may be open behind a
    backslash. -/
theorem printed_pieces {ts : List Filter} (hts : ∀ t ∈ ts, GoodField t.field) (hne : ts ≠ []) :
    ∃ init last open_, joinBy ' ' (ts.map formatToken) = lead ' ' init last
      ∧ (∀ p ∈ init, Closed cutter p ∧ Solid p) ∧ Solid last
      ∧ run cutter ⟨false, false⟩ last = some ⟨false, open_⟩ ∧ init.length < ts.length := by
  induction ts with
  | nil => exact absurd rfl hne
  | cons t ts ih =>
      have ht := hts t (List.mem_cons_self ..)
      have hsolid := solid_format ht
      have hrun := run_format ht
      cases ts with
      | nil =>
          exact ⟨[], formatToken t, dangles t.value, rfl, by simp, hsolid, hrun, by simp⟩
      | cons u ts =>
          obtain ⟨init, last, open_, hjoin, hinit, hlast, hopen, hlength⟩ :=
            ih (fun t ht => hts t (List.mem_cons_of_mem _ ht)) (List.cons_ne_nil _ _)
          rw [List.map_cons, joinBy_cons _ _ (by simp), hjoin]
          cases hdangles : dangles t.value with
          | false =>
              rw [hdangles] at hrun
              refine ⟨formatToken t :: init, last, open_, rfl, ?_, hlast, hopen,
                by simpa using hlength⟩
              intro p hp
              rcases List.mem_cons.mp hp with rfl | hp
              · exact ⟨⟨hsolid.ne_nil, hrun⟩, hsolid⟩
              · exact hinit p hp
          | true =>
              -- the blank and the next piece are taken in
              rw [hdangles] at hrun
              have hjoined : ∀ q, run cutter ⟨false, false⟩ (formatToken t ++ ' ' :: q)
                  = run cutter ⟨false, false⟩ q := by
                intro q
                rw [run_append_of hrun, run_step (Or.inr (by decide))]
                rfl
              cases init with
              | nil =>
                  exact ⟨[], formatToken t ++ ' ' :: last, open_, rfl, by simp,
                    hsolid.append hlast, (hjoined last).trans hopen, by simp⟩
              | cons p init =>
                  obtain ⟨hclosed, hp⟩ := hinit p (List.mem_cons_self ..)
                  refine ⟨(formatToken t ++ ' ' :: p) :: init, last, open_, by simp [lead_cons], ?_,
                    hlast, hopen, by simpa using Nat.lt_succ_of_lt hlength⟩
                  intro q hq
                  rcases List.mem_cons.mp hq with rfl | hq
                  · exact ⟨⟨(hsolid.append hp).ne_nil, (hjoined p).trans hclosed.2⟩,
                      hsolid.append hp⟩
                  · exact hinit q (List.mem_cons_of_mem _ hq)

-- ── the first piece of what is printed ────────────────────────────────────────

theorem segment_some {p d : Text} (hp : Solid p) (h : freeSegment p = some d) :
    d = p ∧ parseToken p = none := by
  have hnone : parseToken p = none := by
    by_contra hne
    rw [segment_of_token hne] at h
    exact nomatch h
  rw [hp.begins.freeSegment hnone] at h
  exact ⟨(Option.some.inj h).symm, hnone⟩

theorem freePieces_of_closed {ps : List Text} (hps : ∀ p ∈ ps, Closed cutter p ∧ Solid p) :
    ∀ q ∈ ps.filterMap freeSegment, FreePiece q := by
  intro q hq
  obtain ⟨p, hp, hseg⟩ := List.mem_filterMap.mp hq
  obtain ⟨hclosed, hsolid⟩ := hps p hp
  obtain ⟨rfl, hfree⟩ := segment_some hsolid hseg
  exact ⟨hsolid, hclosed, hfree⟩

theorem trim_joinBy {p : Text} (hp : Begins p) (ps : List Text) :
    trim (joinBy ' ' (p :: ps)) = trimEnd (joinBy ' ' (p :: ps)) := by
  obtain ⟨c, cs, rfl, hc, -⟩ := hp
  have hcons : ∃ rest, joinBy ' ' ((c :: cs) :: ps) = c :: rest := by
    cases ps with
    | nil => exact ⟨cs, rfl⟩
    | cons q ps => exact ⟨_, joinBy_cons _ _ (List.cons_ne_nil _ _)⟩
  obtain ⟨rest, hrest⟩ := hcons
  rw [hrest, trim_cons hc, trimEnd_cons hc]

theorem trimEnd_joinBy_ne_nil {p : Text} (hp : Solid p) (ps : List Text) :
    trimEnd (joinBy ' ' (p :: ps)) ≠ [] := by
  have h := trimEnd_joinBy (show ∀ q ∈ [p], Solid q by simpa using hp) (List.cons_ne_nil _ _) ps
  rw [List.singleton_append] at h
  rw [h]
  split
  · exact hp.ne_nil
  · simp [lead]

/-- A backslash at the end takes the blank in. -/
theorem run_open {last : Text} (hopen : run cutter ⟨false, false⟩ last = some ⟨false, true⟩)
    (q : Text) : run cutter ⟨false, false⟩ (last ++ ' ' :: q) = run cutter ⟨false, false⟩ q := by
  rw [run_append_of hopen, run_step (Or.inr (by decide))]
  rfl

theorem takePiece_open {last : Text}
    (hopen : run cutter ⟨false, false⟩ last = some ⟨false, true⟩) (q : Text) :
    takePiece cutter ⟨false, false⟩ (last ++ ' ' :: q)
      = (last ++ ' ' :: (takePiece cutter ⟨false, false⟩ q).1,
        (takePiece cutter ⟨false, false⟩ q).2) := by
  have hrun : run cutter ⟨false, false⟩ (last ++ [' ']) = some ⟨false, false⟩ := run_open hopen []
  have happend := takePiece_of_run hrun q
  rw [List.append_assoc, List.singleton_append] at happend
  rw [happend, List.append_assoc]
  rfl

theorem trimEnd_of_trim {x : Text} (h : trim x = x) : trimEnd x = x := by
  rw [← h, trim, trimEnd_idem]

/-- The free text does not begin with what is open in front of it. -/
theorem not_open_first {last x first rest : Text} (hlast : Solid last)
    (hopen : run cutter ⟨false, false⟩ last = some ⟨false, true⟩) (htrim : trim x = x)
    (hbegins : ∃ c cs, first = c :: cs ∧ isSpace c = false)
    (htake : takePiece cutter ⟨false, false⟩ x = (first, rest)) (ss : List Text) :
    x ≠ trimEnd (joinBy ' ' ((last ++ ' ' :: first) :: ss)) := by
  intro hx
  have hjoin : ∃ tail, joinBy ' ' ((last ++ ' ' :: first) :: ss) = last ++ ' ' :: (first ++ tail)
      ∧ (tail = [] ∨ ∃ j, tail = ' ' :: j) := by
    cases ss with
    | nil => exact ⟨[], by simp [joinBy], Or.inl rfl⟩
    | cons s ss =>
        exact ⟨_, by rw [joinBy_cons _ _ (List.cons_ne_nil _ _)]; simp; rfl, Or.inr ⟨_, rfl⟩⟩
  obtain ⟨tail, hjoin, htail⟩ := hjoin
  have hne : trimEnd (first ++ tail) ≠ [] := by
    obtain ⟨c, cs, rfl, hc⟩ := hbegins
    rw [List.cons_append, trimEnd_cons hc]
    exact List.cons_ne_nil _ _
  rw [hjoin, trimEnd_solid_append hlast, if_neg hne] at hx
  have hfirst := congrArg Prod.fst (takePiece_open hopen (trimEnd (first ++ tail)))
  rw [← hx, htake] at hfirst
  have happend : first ++ rest = x := by
    have h := takePiece_append cutter ⟨false, false⟩ x
    rwa [htake] at h
  have hlength := congrArg List.length hx
  rw [List.length_append, List.length_cons] at hlength
  rw [trimEnd_append] at hfirst hx hlength
  by_cases hend : trimEnd tail = []
  · -- the text is one piece, and what is open stands in front of all of it
    rw [if_pos hend] at hfirst hx hlength
    obtain ⟨suffix, hsuffix⟩ := List.rdropWhile_prefix isSpace first
    have hwhole : ∃ st, run cutter ⟨false, false⟩ first = some st := by
      rcases takePiece_cases (k := cutter) ⟨false, false⟩ x with ⟨st, hrun, -⟩ | ⟨hrun, -⟩
      · exact ⟨st, by rwa [htake] at hrun⟩
      · exact ⟨_, by rwa [htake] at hrun⟩
    obtain ⟨st, hrun⟩ := hwhole
    rw [← hsuffix] at hrun
    obtain ⟨st', hprefix⟩ := run_prefix hrun
    have htrimmed := congrArg Prod.fst (takePiece_of_run hprefix [])
    rw [List.append_nil, takePiece, List.append_nil] at htrimmed
    change (takePiece cutter _ (trimEnd first)).1 = trimEnd first at htrimmed
    rw [htrimmed, ← hx] at hfirst
    simp only at hfirst
    rw [hfirst, trimEnd_of_trim htrim] at hlength
    omega
  · -- what is open stands in front of the first piece
    rw [if_neg hend] at hfirst hx hlength
    rw [← happend, List.length_append, List.length_append] at hlength
    have hclosed : run cutter ⟨false, false⟩ first = some ⟨false, false⟩ := by
      rcases takePiece_cases (k := cutter) ⟨false, false⟩ x with ⟨st, hrun, hrest⟩ | ⟨hrun, -⟩
      · rw [htake] at hrest
        simp only at hrest
        rw [hrest, List.length_nil] at hlength
        omega
      · rwa [htake] at hrun
    rcases htail with rfl | ⟨j, rfl⟩
    · exact hend rfl
    · rw [trimEnd_blank, if_neg (fun hj => hend (by rw [trimEnd_blank, if_pos hj])),
        takePiece_of_run hclosed, show (⟨false, false⟩ : Reading) = cutter.start from rfl,
        takePiece_blank isWhitespace_blank, List.append_nil] at hfirst
      have hlength := congrArg List.length hfirst
      simp only [List.length_append, List.length_cons] at hlength
      omega

theorem segments_blank (x : Text) : segments (' ' :: x) = segments x := by
  rw [segments_eq, segments_eq, pieces_blank isWhitespace_blank]

theorem no_filter_of_free {ps : List Text} (h : ∀ p ∈ ps, parseToken p = none) :
    ps.filterMap filterOf = [] := by
  rw [List.filterMap_eq_nil_iff]
  intro p hp
  rw [filterOf, h p hp]
  rfl

/-- A closed piece at the front of a text, with what follows it. -/
theorem takePiece_front {p : Text} (hp : FreePiece p) (l : List Text) :
    takePiece cutter ⟨false, false⟩ (trimEnd (joinBy ' ' (p :: l)))
      = (p, if trimEnd (joinBy ' ' l) = [] then [] else ' ' :: trimEnd (joinBy ' ' l)) := by
  have hsolid : ∀ q ∈ [p], Solid q := by simpa using hp.solid
  have hjoin := trimEnd_joinBy hsolid (List.cons_ne_nil _ _) l
  rw [List.singleton_append] at hjoin
  rw [hjoin]
  by_cases hend : trimEnd (joinBy ' ' l) = []
  · have h := takePiece_of_run hp.closed.2 []
    rw [List.append_nil, takePiece, List.append_nil] at h
    rw [if_pos hend, if_pos hend]
    exact h
  · have h := takePiece_of_run hp.closed.2 (' ' :: trimEnd (joinBy ' ' l))
    rw [takePiece_blank isWhitespace_blank, List.append_nil] at h
    rw [if_neg hend, if_neg hend]
    exact h

/-- Of a text that is free text and what is read of the text again, there is no such free
    text, and no token. -/
theorem nothing_between {qs : List Text} {rest : Text} (hqs : ∀ q ∈ qs, FreePiece q)
    (hrest : rest = if trimEnd (joinBy ' ' (qs ++ segments rest)) = [] then []
      else ' ' :: trimEnd (joinBy ' ' (qs ++ segments rest))) :
    qs = [] ∧ (pieces cutter rest).filterMap filterOf = [] := by
  by_cases hend : trimEnd (joinBy ' ' (qs ++ segments rest)) = []
  · rw [if_pos hend] at hrest
    have hnil : qs = [] := by
      cases qs with
      | nil => rfl
      | cons q qs =>
          exact absurd hend (trimEnd_joinBy_ne_nil (hqs q (List.mem_cons_self ..)).solid _)
    rw [hrest, pieces_nil]
    exact ⟨hnil, rfl⟩
  · rw [if_neg hend] at hrest
    generalize hy : trimEnd (joinBy ' ' (qs ++ segments rest)) = y at hrest
    have hsegments : segments rest = segments y := by rw [hrest, segments_blank]
    rw [hsegments] at hy
    have hnil : qs = [] := by
      by_contra hne
      exact not_regress hqs hne y hy.symm
    rw [hnil, List.nil_append] at hy
    have hlength : y.length ≤ (joinBy ' ' (segments y)).length := by
      conv_lhs => rw [← hy]
      exact length_trimEnd_le _
    rw [hrest, pieces_blank isWhitespace_blank]
    exact ⟨hnil, no_filter_of_free (fun q hq => (free_of_fixed hlength q hq).2.1)⟩

/-- Free text before what is open is the first piece of the free text at the end; there is
    no more of it, and no other piece at the end is a token. -/
theorem alone_before_open {last x first rest p : Text} {ps : List Text} (hlast : Solid last)
    (hopen : run cutter ⟨false, false⟩ last = some ⟨false, true⟩)
    (htake : takePiece cutter ⟨false, false⟩ x = (first, rest)) (hp : FreePiece p)
    (hps : ∀ q ∈ ps, FreePiece q)
    (hx : x = trimEnd (joinBy ' ' (p :: (ps ++ (freeSegment (last ++ ' ' :: first)).toList
      ++ segments rest)))) :
    p = first ∧ ps = [] ∧ freeSegment (last ++ ' ' :: first) = none
      ∧ (pieces cutter rest).filterMap filterOf = [] := by
  have hfront := takePiece_front hp
    (ps ++ (freeSegment (last ++ ' ' :: first)).toList ++ segments rest)
  rw [← hx, htake, Prod.mk.injEq] at hfront
  obtain ⟨rfl, hrest⟩ := hfront
  have hfree : ∀ q ∈ ps ++ (freeSegment (last ++ ' ' :: first)).toList, FreePiece q := by
    intro q hq
    rcases List.mem_append.mp hq with hq | hq
    · exact hps q hq
    · have hsolid := hlast.append hp.solid
      obtain ⟨rfl, hnone⟩ := segment_some hsolid (Option.mem_toList.mp hq)
      exact ⟨hsolid, ⟨hsolid.ne_nil, (run_open hopen first).trans hp.closed.2⟩, hnone⟩
  obtain ⟨hnil, hnone⟩ := nothing_between hfree hrest
  obtain ⟨hps, hlast⟩ := List.append_eq_nil_iff.mp hnil
  exact ⟨rfl, hps, Option.toList_eq_nil_iff.mp hlast, hnone⟩

theorem count_filters (ps : List Text) :
    (ps.filterMap filterOf).length + (ps.filterMap freeSegment).length = ps.length := by
  induction ps with
  | nil => rfl
  | cons p ps ih =>
      cases hp : parseToken p with
      | none =>
          have hfilter : filterOf p = none := by
            rw [filterOf, hp]
            rfl
          rw [List.filterMap_cons_none hfilter, List.filterMap_cons_some (segment_of_none hp)]
          simp only [List.length_cons]
          omega
      | some t =>
          have hfilter : filterOf p = some t.toFilter := by
            rw [filterOf, hp]
            rfl
          have htoken : parseToken p ≠ none := by
            rw [hp]
            exact Option.some_ne_none t
          rw [List.filterMap_cons_some hfilter, List.filterMap_cons_none (segment_of_token htoken)]
          simp only [List.length_cons]
          omega

theorem length_filterOf_le (ps : List Text) : (ps.filterMap filterOf).length ≤ ps.length :=
  Nat.le.intro (count_filters ps)

/-- What stands in front of the free text does not begin with free text, if it is closed. -/
theorem first_of_closed {front : List Text} {x : Text} (hne : front ≠ [])
    (hfront : ∀ p ∈ front, Closed cutter p ∧ Solid p)
    (hx : trim (joinBy ' ' (front.filterMap freeSegment ++ segments x)) = x) :
    ∃ p rest, front = p :: rest ∧ parseToken p ≠ none := by
  have hfree := freePieces_of_closed hfront
  obtain ⟨p, rest, rfl⟩ := List.exists_cons_of_ne_nil hne
  refine ⟨p, rest, rfl, fun hnone => ?_⟩
  have hsolid := (hfront p (List.mem_cons_self ..)).2
  rw [List.filterMap_cons_some (hsolid.begins.freeSegment hnone)] at hx hfree
  rw [List.cons_append, trim_joinBy hsolid.begins] at hx
  exact not_regress hfree (List.cons_ne_nil _ _) x hx.symm

/-- The free text of a search one of whose pieces takes in the beginning of another. -/
theorem segments_open (init : List Text) (merged rest : Text) :
    (init ++ merged :: pieces cutter rest).filterMap freeSegment
      = init.filterMap freeSegment ++ (freeSegment merged).toList ++ segments rest := by
  rw [List.filterMap_append, segments_eq, List.append_assoc]
  refine congrArg (init.filterMap freeSegment ++ ·) ?_
  cases hmerged : freeSegment merged with
  | none => rw [List.filterMap_cons_none hmerged]; rfl
  | some d => rw [List.filterMap_cons_some hmerged]; rfl

/-- What takes in the beginning of the free text, behind tokens, is a token. -/
theorem open_is_token {last x first rest : Text} (hlast : Solid last)
    (hopen : run cutter ⟨false, false⟩ last = some ⟨false, true⟩) (htrim : trim x = x)
    (hbegins : ∃ c cs, first = c :: cs ∧ isSpace c = false)
    (htake : takePiece cutter ⟨false, false⟩ x = (first, rest))
    (hx : trim (joinBy ' ' ((freeSegment (last ++ ' ' :: first)).toList ++ segments rest)) = x) :
    parseToken (last ++ ' ' :: first) ≠ none := by
  intro hnone
  have hfirst : Begins (last ++ ' ' :: first) := hlast.begins.append _
  rw [hfirst.freeSegment hnone, Option.toList_some, List.singleton_append, trim_joinBy hfirst] at hx
  exact not_open_first hlast hopen htrim hbegins htake _ hx.symm

/-- Nor if it takes in the beginning of the free text. -/
theorem first_of_open {init : List Text} {last x first rest : Text}
    (hinit : ∀ p ∈ init, Closed cutter p ∧ Solid p) (hlast : Solid last)
    (hopen : run cutter ⟨false, false⟩ last = some ⟨false, true⟩) (htrim : trim x = x)
    (hbegins : ∃ c cs, first = c :: cs ∧ isSpace c = false)
    (htake : takePiece cutter ⟨false, false⟩ x = (first, rest))
    (hcount : init.length < ((init ++ (last ++ ' ' :: first) :: pieces cutter rest).filterMap
      filterOf).length)
    (hx : trim (joinBy ' ' ((init ++ (last ++ ' ' :: first) :: pieces cutter rest).filterMap
      freeSegment)) = x) :
    ∃ p ps, init ++ (last ++ ' ' :: first) :: pieces cutter rest = p :: ps
      ∧ parseToken p ≠ none := by
  rw [segments_open] at hx
  have hfree := freePieces_of_closed hinit
  cases hinits : init.filterMap freeSegment with
  | nil =>
      rw [hinits, List.nil_append] at hx
      cases init with
      | nil => exact ⟨_, _, rfl, open_is_token hlast hopen htrim hbegins htake hx⟩
      | cons p init =>
          refine ⟨p, _, rfl, fun hnone => ?_⟩
          rw [List.filterMap_cons_some (segment_of_none hnone)] at hinits
          exact nomatch hinits
  | cons p ps =>
      -- two pieces for each token at most, and free text among them
      rw [hinits] at hx hfree
      have hp := hfree p (List.mem_cons_self ..)
      rw [List.append_assoc, List.cons_append, ← List.append_assoc,
        trim_joinBy hp.solid.begins] at hx
      obtain ⟨-, rfl, -, hnone⟩ := alone_before_open hlast hopen htake hp
        (fun q hq => hfree q (List.mem_cons_of_mem _ hq)) hx.symm
      have hcounts := count_filters init
      rw [hinits] at hcounts
      rw [List.filterMap_append, List.length_append, ← List.singleton_append,
        List.filterMap_append, hnone, List.append_nil] at hcount
      have hone := length_filterOf_le [last ++ ' ' :: first]
      simp only [List.length_cons, List.length_nil] at hcounts hone
      omega

-- ── printed and read again ────────────────────────────────────────────────────

/-- What is read of a printed search is the search that was printed. -/
structure ReadsAgain (ts : List Filter) (freeText : Text) : Prop where
  filters : (pieces cutter (buildSearch ts freeText)).filterMap filterOf = ts
  freeText : trim (joinBy ' ' (segments (buildSearch ts freeText))) = freeText

theorem buildSearch_nil (ts : List Filter) :
    buildSearch ts [] = joinBy ' ' (ts.map formatToken) := by
  rw [buildSearch, if_pos (show trim [] = [] from rfl), List.append_nil]

theorem buildSearch_freeText (ts : List Filter) {freeText : Text} (htrim : trim freeText = freeText)
    (hne : freeText ≠ []) :
    buildSearch ts freeText = lead ' ' (ts.map formatToken) freeText := by
  rw [buildSearch, htrim, if_neg hne, joinBy_concat]

/-- The pieces of a printed search: those of the filters and those of the free text, or a
    last filter that takes the first piece of the free text in. -/
theorem printed_cases {ts : List Filter} {freeText : Text} (hts : ∀ t ∈ ts, GoodField t.field)
    (hne : ts ≠ []) (htrim : trim freeText = freeText) (hempty : freeText ≠ []) :
    (∃ front, front ≠ [] ∧ (∀ p ∈ front, Closed cutter p ∧ Solid p)
        ∧ pieces cutter (buildSearch ts freeText) = front ++ pieces cutter freeText)
      ∨ ∃ init last first rest, (∀ p ∈ init, Closed cutter p ∧ Solid p) ∧ Solid last
        ∧ run cutter ⟨false, false⟩ last = some ⟨false, true⟩ ∧ init.length < ts.length
        ∧ (∃ c cs, first = c :: cs ∧ isSpace c = false)
        ∧ takePiece cutter ⟨false, false⟩ freeText = (first, rest)
        ∧ pieces cutter (buildSearch ts freeText)
          = init ++ (last ++ ' ' :: first) :: pieces cutter rest := by
  obtain ⟨init, last, open_, hjoin, hinit, hlast, hopen, hcount⟩ := printed_pieces hts hne
  have hbuild : buildSearch ts freeText = lead ' ' init (last ++ ' ' :: freeText) := by
    rw [buildSearch_freeText ts htrim hempty, lead_eq_joinBy _ (by simpa using hne), hjoin,
      lead_append_text]
  cases open_ with
  | false =>
      have hfront : ∀ p ∈ init ++ [last], Closed cutter p ∧ Solid p := by
        intro p hp
        rcases List.mem_append.mp hp with hp | hp
        · exact hinit p hp
        · rw [List.mem_singleton.mp hp]
          exact ⟨⟨hlast.ne_nil, hopen⟩, hlast⟩
      refine Or.inl ⟨init ++ [last], by simp, hfront, ?_⟩
      rw [hbuild, ← pieces_lead isWhitespace_blank (fun p hp => (hfront p hp).1), lead_append]
      rfl
  | true =>
      obtain ⟨c, cs, hcons, hc, -⟩ := (trimmed_cases freeText).resolve_left (by rwa [htrim])
      rw [htrim] at hcons
      have hblank : cutter.blank c = false := isWhitespace_of_not_space hc
      obtain ⟨first, rest, htake, happend, hends⟩ := takePiece_first (k := cutter) hblank cs
      have hfirst : first ≠ [] := hends.elim (fun h => h.1.1) (fun h => h.1.1)
      have hbegins : ∃ c cs, first = c :: cs ∧ isSpace c = false := by
        obtain ⟨d, ds, rfl⟩ := List.exists_cons_of_ne_nil hfirst
        exact ⟨d, ds, rfl, (List.cons.inj happend).1 ▸ hc⟩
      rw [← hcons] at htake
      refine Or.inr ⟨init, last, first, rest, hinit, hlast, hopen, hcount, hbegins, htake, ?_⟩
      have hrun : run cutter cutter.start (last ++ [' ']) = some cutter.start :=
        run_open hopen []
      have hlastPieces := pieces_run (by simp) hrun freeText
      rw [htake] at hlastPieces
      simp only [List.append_assoc, List.singleton_append] at hlastPieces
      rw [hbuild, pieces_lead isWhitespace_blank (fun p hp => (hinit p hp).1), hlastPieces]

/-- The pieces of filters that are printed without free text. -/
theorem printed_alone {ts : List Filter} (hts : ∀ t ∈ ts, GoodField t.field) :
    ∀ p ∈ pieces cutter (buildSearch ts []), Solid p := by
  rw [buildSearch_nil]
  cases ts with
  | nil => simp [joinBy]
  | cons t ts =>
      obtain ⟨init, last, open_, hjoin, hinit, hlast, hopen, -⟩ :=
        printed_pieces hts (List.cons_ne_nil _ _)
      rw [hjoin, pieces_lead isWhitespace_blank (fun p hp => (hinit p hp).1),
        pieces_whole ⟨hlast.ne_nil, _, hopen⟩]
      intro p hp
      rcases List.mem_append.mp hp with hp | hp
      · exact (hinit p hp).2
      · exact List.mem_singleton.mp hp ▸ hlast

/-- Solid pieces that leave no free text are tokens. -/
theorem tokens_of_no_text {ps : List Text} (hps : ∀ p ∈ ps, Solid p)
    (h : trim (joinBy ' ' (ps.filterMap freeSegment)) = []) : ∀ p ∈ ps, parseToken p ≠ none := by
  intro p hp hnone
  have hsegment := (hps p hp).begins.freeSegment hnone
  cases hfree : ps.filterMap freeSegment with
  | nil => exact absurd (List.mem_filterMap.mpr ⟨p, hp, hsegment⟩) (by simp [hfree])
  | cons d ds =>
      have hd : d ∈ ps.filterMap freeSegment := by
        rw [hfree]
        exact List.mem_cons_self ..
      obtain ⟨q, hq, hsegment⟩ := List.mem_filterMap.mp hd
      obtain ⟨rfl, -⟩ := segment_some (hps q hq) hsegment
      rw [hfree, trim_joinBy (hps d hq).begins] at h
      exact trimEnd_joinBy_ne_nil (hps d hq) ds h

/-- The first piece of a search that is read again is one of its tokens. -/
theorem first_is_token {ts : List Filter} {freeText : Text} (hts : ∀ t ∈ ts, GoodField t.field)
    (hne : ts ≠ []) (htrim : trim freeText = freeText) (h : ReadsAgain ts freeText) :
    ∃ p ps, pieces cutter (buildSearch ts freeText) = p :: ps ∧ parseToken p ≠ none := by
  obtain ⟨hfilters, hfree⟩ := h
  rw [segments_eq] at hfree
  by_cases hempty : freeText = []
  · subst hempty
    have htokens := tokens_of_no_text (printed_alone hts) hfree
    cases hpieces : pieces cutter (buildSearch ts []) with
    | nil =>
        rw [hpieces] at hfilters
        exact absurd hfilters.symm hne
    | cons p ps => exact ⟨p, ps, rfl, htokens p (by rw [hpieces]; exact List.mem_cons_self ..)⟩
  · rcases printed_cases hts hne htrim hempty with ⟨front, hsome, hfront, hpieces⟩
      | ⟨init, last, first, rest, hinit, hlast, hopen, hcount, hbegins, htake, hpieces⟩
    · rw [hpieces, List.filterMap_append, ← segments_eq] at hfree
      obtain ⟨p, ps, hps, htoken⟩ := first_of_closed hsome hfront hfree
      exact ⟨p, ps ++ pieces cutter freeText, by rw [hpieces, hps]; rfl, htoken⟩
    · rw [← hfilters] at hcount
      rw [hpieces] at hcount hfree ⊢
      exact first_of_open hinit hlast hopen htrim hbegins htake hcount hfree

/-- When a search reads again as it was printed: no token reads as part of an address,
    none but the last thing printed ends behind a backslash, and of the free text, whose
    pieces stand one blank apart, no piece is a token or in quotes. -/
structure Stable (ts : List Filter) (freeText : Text) : Prop where
  address : ∀ t ∈ ts, ¬ Slashed t.value
  backslash : ∀ before t after, ts = before ++ t :: after → dangles t.value = true →
    after = [] ∧ freeText = []
  noToken : ∀ p ∈ pieces cutter freeText, parseToken p = none
  noQuotes : ∀ p ∈ pieces cutter freeText, parseQuotedValue p = none
  blanks : joinBy ' ' (pieces cutter freeText) = freeText

theorem stable_nil {freeText : Text} : Stable [] freeText
    ↔ (∀ p ∈ pieces cutter freeText, parseToken p = none)
      ∧ (∀ p ∈ pieces cutter freeText, parseQuotedValue p = none)
      ∧ joinBy ' ' (pieces cutter freeText) = freeText := by
  constructor
  · exact fun h => ⟨h.noToken, h.noQuotes, h.blanks⟩
  · rintro ⟨hnoToken, hnoQuotes, hblanks⟩
    exact ⟨by simp, by simp, hnoToken, hnoQuotes, hblanks⟩

theorem Stable.cons {t : Filter} {ts : List Filter} {freeText : Text} (h : Stable ts freeText)
    (ht : ¬ Slashed t.value) (hdangles : dangles t.value = true → ts = [] ∧ freeText = []) :
    Stable (t :: ts) freeText := by
  refine ⟨?_, ?_, h.noToken, h.noQuotes, h.blanks⟩
  · intro u hu
    rcases List.mem_cons.mp hu with rfl | hu
    · exact ht
    · exact h.address u hu
  · intro before u after hsplit hu
    cases before with
    | nil =>
        obtain ⟨rfl, rfl⟩ := List.cons.inj hsplit
        exact hdangles hu
    | cons v before => exact h.backslash before u after (List.cons.inj hsplit).2 hu

theorem Stable.tail {t : Filter} {ts : List Filter} {freeText : Text}
    (h : Stable (t :: ts) freeText) : Stable ts freeText where
  address := fun u hu => h.address u (List.mem_cons_of_mem _ hu)
  backslash := fun before u after hsplit hu =>
    h.backslash (t :: before) u after (by rw [hsplit]; rfl) hu
  noToken := h.noToken
  noQuotes := h.noQuotes
  blanks := h.blanks

theorem filterOf_format {t : Filter} (h : GoodField t.field) (hslashed : ¬ Slashed t.value) :
    filterOf (formatToken t) = some t ∧ parseToken (formatToken t) ≠ none := by
  rw [filterOf, parseToken_format h, if_neg hslashed]
  exact ⟨rfl, Option.some_ne_none _⟩

theorem filterOf_slashed {t : Filter} (ht : GoodField t.field) (h : Slashed t.value) :
    filterOf (formatToken t) = none := by
  rw [filterOf, parseToken_format ht, if_pos h]
  rfl

/-- A printed search with one more token in front, when something stands behind it. -/
theorem buildSearch_cons (t : Filter) {ts : List Filter} {freeText : Text}
    (h : ts ≠ [] ∨ trim freeText ≠ []) :
    buildSearch (t :: ts) freeText = formatToken t ++ ' ' :: buildSearch ts freeText := by
  rw [buildSearch, buildSearch, List.map_cons, List.cons_append, joinBy_cons]
  rw [ne_eq, List.append_eq_nil_iff, not_and]
  intro hts hfree
  rcases h with h | h
  · exact h (by simpa using hts)
  · rw [if_neg h] at hfree
    exact nomatch hfree

theorem buildSearch_one (t : Filter) : buildSearch [t] [] = formatToken t := by
  rw [buildSearch_nil]
  rfl

/-- What is read of a printed search whose first token is over where it ends. -/
theorem readsAgain_cons {t : Filter} {ts : List Filter} {freeText : Text} (ht : GoodField t.field)
    (hslashed : ¬ Slashed t.value) (hdangles : dangles t.value = false)
    (hrest : ts ≠ [] ∨ trim freeText ≠ []) :
    ReadsAgain (t :: ts) freeText ↔ ReadsAgain ts freeText := by
  have hrun := run_format ht
  rw [hdangles] at hrun
  obtain ⟨hfilter, htoken⟩ := filterOf_format ht hslashed
  have hpieces : pieces cutter (buildSearch (t :: ts) freeText)
      = formatToken t :: pieces cutter (buildSearch ts freeText) := by
    rw [buildSearch_cons t hrest, pieces_closed ⟨(solid_format ht).ne_nil, hrun⟩ isWhitespace_blank]
  have hfilters : (pieces cutter (buildSearch (t :: ts) freeText)).filterMap filterOf = t :: ts
      ↔ (pieces cutter (buildSearch ts freeText)).filterMap filterOf = ts := by
    rw [hpieces, List.filterMap_cons_some hfilter, List.cons.injEq]
    exact and_iff_right rfl
  have hsegments : segments (buildSearch (t :: ts) freeText)
      = segments (buildSearch ts freeText) := by
    rw [segments_eq, hpieces, List.filterMap_cons_none (segment_of_token htoken), segments_eq]
  constructor
  · exact fun h => ⟨hfilters.mp h.filters, hsegments ▸ h.freeText⟩
  · exact fun h => ⟨hfilters.mpr h.filters, hsegments ▸ h.freeText⟩

theorem segments_of_free {x : Text} (h : ∀ p ∈ pieces cutter x, freeSegment p = some p) :
    segments x = pieces cutter x := by
  rw [segments_eq]
  generalize pieces cutter x = ps at h
  induction ps with
  | nil => rfl
  | cons p ps ih =>
      rw [List.filterMap_cons_some (h p (List.mem_cons_self ..)),
        ih (fun q hq => h q (List.mem_cons_of_mem _ hq))]

theorem eq_of_length_trim {x : Text} (h : x.length ≤ (trim x).length) : trim x = x := by
  have hstart : trimStart x <:+ x := List.dropWhile_suffix _
  have hend : trimEnd (trimStart x) <+: trimStart x := List.rdropWhile_prefix ..
  have hle := hstart.length_le
  have hle' := hend.length_le
  rw [trim] at h ⊢
  rw [hend.eq_of_length (le_antisymm hle' (hle.trans h)),
    hstart.eq_of_length (le_antisymm hle (h.trans hle'))]

theorem readsAgain_nil {freeText : Text} (htrim : trim freeText = freeText) :
    ReadsAgain [] freeText ↔ Stable [] freeText := by
  have hbuild : buildSearch [] freeText = freeText := by
    by_cases hempty : freeText = []
    · rw [hempty, buildSearch_nil]
      rfl
    · rw [buildSearch_freeText [] htrim hempty]
      rfl
  rw [stable_nil]
  constructor
  · rintro ⟨-, hfree⟩
    rw [hbuild] at hfree
    have hlength : freeText.length ≤ (joinBy ' ' (segments freeText)).length := by
      conv_lhs => rw [← hfree]
      exact length_trim_le _
    have hkept := free_of_fixed hlength
    have hsegments := segments_of_free (fun p hp => (hkept p hp).1)
    refine ⟨fun p hp => (hkept p hp).2.1, fun p hp => (hkept p hp).2.2, ?_⟩
    rw [hsegments] at hfree
    have hroom := room_pieces_le (k := cutter) freeText
    have hjoin := length_joinBy ' ' (pieces cutter freeText)
    have htrimmed := eq_of_length_trim (x := joinBy ' ' (pieces cutter freeText))
      (by rw [hfree]; omega)
    exact htrimmed.symm.trans hfree
  · rintro ⟨hnoToken, hnoQuotes, hblanks⟩
    constructor
    · rw [hbuild, no_filter_of_free hnoToken]
    · rw [hbuild, segments_of_free, hblanks, htrim]
      intro p hp
      rw [segment_of_none (hnoToken p hp), decodeFreeTextSegment, hnoQuotes p hp]
      rfl

/-- A printed filter that is open at its end reads with what follows it. -/
theorem filterOf_open {t : Filter} (h : GoodField t.field) (hdangles : dangles t.value = true)
    (q : Text) : filterOf (formatToken t ++ ' ' :: q) ≠ some t := by
  rw [dangles, Bool.and_eq_true, Bool.not_eq_true'] at hdangles
  have hplain : serializeValue t.value = t.value := if_neg (by simp [hdangles.1])
  rw [formatToken_eq, hplain, List.append_assoc, List.append_assoc, List.cons_append, filterOf,
    parseToken_eq h]
  intro hsome
  split at hsome
  · cases hsome
  · rw [Option.map_map, Option.map_eq_some_iff] at hsome
    obtain ⟨value, hvalue, htoken⟩ := hsome
    obtain ⟨hne, hmem⟩ := not_quoted_of_plain hdangles.1
    have hquoted : ¬ ['"'] <+: t.value ++ ' ' :: q := by
      obtain ⟨c, cs, hcs⟩ := List.exists_cons_of_ne_nil hne
      rintro ⟨rest, hrest⟩
      rw [hcs] at hrest
      have hc := (List.cons.inj hrest).1
      exact (hmem c (by rw [hcs]; exact List.mem_cons_self ..)).2 hc.symm
    rw [normalizeTokenValue_of_not_quoted (by simp) hquoted] at hvalue
    have hsame := congrArg Filter.value htoken
    rw [← Option.some.inj hvalue] at hsame
    have hlength := congrArg List.length hsame
    simp at hlength

/-- A printed search reads as it was exactly when it is stable. -/
theorem readsAgain_iff {ts : List Filter} {freeText : Text} (hts : ∀ t ∈ ts, GoodField t.field)
    (htrim : trim freeText = freeText) : ReadsAgain ts freeText ↔ Stable ts freeText := by
  induction ts with
  | nil => exact readsAgain_nil htrim
  | cons t ts ih =>
      have ht := hts t (List.mem_cons_self ..)
      have ih := ih (fun u hu => hts u (List.mem_cons_of_mem _ hu))
      have hwhole : Whole cutter (formatToken t) := ⟨(solid_format ht).ne_nil, _, run_format ht⟩
      by_cases hlast : ts = [] ∧ freeText = []
      · obtain ⟨rfl, rfl⟩ := hlast
        have hpieces : pieces cutter (buildSearch [t] []) = [formatToken t] := by
          rw [buildSearch_one, pieces_whole hwhole]
        constructor
        · intro h
          obtain ⟨p, ps, hp, htoken⟩ := first_is_token hts (List.cons_ne_nil _ _) htrim h
          rw [hpieces] at hp
          rw [← (List.cons.inj hp).1, parseToken_format ht] at htoken
          refine Stable.cons (stable_nil.mpr ?_) (fun hslashed => htoken (if_pos hslashed))
            (fun _ => ⟨rfl, rfl⟩)
          rw [pieces_nil]
          exact ⟨by simp, by simp, rfl⟩
        · intro h
          obtain ⟨hfilter, htoken⟩ := filterOf_format ht (h.address t (List.mem_cons_self ..))
          constructor
          · rw [hpieces, List.filterMap_cons_some hfilter, List.filterMap_nil]
          · rw [segments_eq, hpieces, List.filterMap_cons_none (segment_of_token htoken)]
            rfl
      · have hrest : ts ≠ [] ∨ trim freeText ≠ [] := by
          rw [htrim]
          exact not_and_or.mp hlast
        cases hdangles : dangles t.value with
        | false =>
            have hdangles' : dangles t.value = true → ts = [] ∧ freeText = [] := by
              rw [hdangles]
              exact fun h => nomatch h
            constructor
            · intro h
              obtain ⟨p, ps, hp, htoken⟩ := first_is_token hts (List.cons_ne_nil _ _) htrim h
              have hrun := run_format ht
              rw [hdangles] at hrun
              rw [buildSearch_cons t hrest,
                pieces_closed ⟨(solid_format ht).ne_nil, hrun⟩ isWhitespace_blank] at hp
              rw [← (List.cons.inj hp).1, parseToken_format ht] at htoken
              have hslashed : ¬ Slashed t.value := fun hslashed => htoken (if_pos hslashed)
              have hstable := ih.mp ((readsAgain_cons ht hslashed hdangles hrest).mp h)
              exact hstable.cons hslashed hdangles'
            · intro h
              have hslashed := h.address t (List.mem_cons_self ..)
              exact (readsAgain_cons ht hslashed hdangles hrest).mpr (ih.mpr h.tail)
        | true =>
            constructor
            · intro h
              obtain ⟨p, ps, hp, htoken⟩ := first_is_token hts (List.cons_ne_nil _ _) htrim h
              have hrun : run cutter cutter.start (formatToken t ++ [' ']) = some cutter.start :=
                run_open (hdangles ▸ run_format ht) []
              have hfirst := pieces_run (by simp) hrun (buildSearch ts freeText)
              rw [List.append_assoc, List.singleton_append, ← buildSearch_cons t hrest, hp,
                List.cons.injEq, List.append_assoc, List.singleton_append] at hfirst
              have hfilters := h.filters
              obtain ⟨token, htoken⟩ := Option.ne_none_iff_exists'.mp htoken
              have hfilter : filterOf p = some token.toFilter := by
                rw [filterOf, htoken]
                rfl
              rw [hp, List.filterMap_cons_some hfilter, List.cons.injEq] at hfilters
              rw [hfilters.1, hfirst.1] at hfilter
              exact absurd hfilter (filterOf_open ht hdangles _)
            · exact fun h => absurd (h.backslash [] t ts rfl hdangles) hlast

theorem goodField_of_filterOf {p : Text} {t : Filter} (h : filterOf p = some t) :
    GoodField t.field := by
  obtain ⟨token, htoken, rfl⟩ := Option.map_eq_some_iff.mp h
  exact (parseToken_some htoken).1

/-- A search string is read again as it was, its tokens in their order and its free text,
    exactly when what its pieces are is stable. -/
theorem roundTrip_iff (input : Text) :
    ((parseSearch (serializeSearch (parseSearch input))).tokens.map (·.toFilter)
        = (parseSearch input).tokens.map (·.toFilter)
      ∧ (parseSearch (serializeSearch (parseSearch input))).freeText = (parseSearch input).freeText)
      ↔ Stable ((pieces cutter input).filterMap filterOf)
          (trim (joinBy ' ' ((pieces cutter input).filterMap freeSegment))) := by
  have hgood : ∀ t ∈ (pieces cutter input).filterMap filterOf, GoodField t.field := by
    intro t ht
    obtain ⟨p, -, hp⟩ := List.mem_filterMap.mp ht
    exact goodField_of_filterOf hp
  rw [← readsAgain_iff hgood (trim_idem _), filters_eq, serializeSearch, filters_eq, parseSearch,
    parseSearch, ← segments_eq]
  exact ⟨fun h => ⟨h.1, h.2⟩, fun h => ⟨h.filters, h.freeText⟩⟩

/-- Free text that was quoted so as not to be a token is one when it is read again. -/
theorem quoted_token_unquoted :
    ¬ ((parseSearch (serializeSearch (parseSearch "\"level:error\"".toList))).tokens.map (·.toFilter)
          = (parseSearch "\"level:error\"".toList).tokens.map (·.toFilter)
        ∧ (parseSearch (serializeSearch (parseSearch "\"level:error\"".toList))).freeText
          = (parseSearch "\"level:error\"".toList).freeText) := by
  have hquoted : parseSearch "\"level:error\"".toList = ⟨[], "level:error".toList⟩ := by
    rw [parseSearch, segments, pieces_whole ⟨by decide, ⟨false, false⟩, by decide⟩]
    decide
  have hprinted : serializeSearch ⟨[], "level:error".toList⟩ = "level:error".toList := by decide
  have hagain : (parseSearch "level:error".toList).tokens
      = [⟨⟨"level".toList, "error".toList, false⟩, "level:error".toList⟩] := by
    rw [parseSearch, pieces_whole ⟨by decide, ⟨false, false⟩, by decide⟩]
    decide
  rw [hquoted, hprinted, hagain]
  rintro ⟨htokens, -⟩
  cases htokens

end DevstackSearchRoundTrip
