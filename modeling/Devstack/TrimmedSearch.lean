import Devstack.SearchEdits

/-! # Trimmed searches — white space at the ends of a search

    `trim` takes off all white space of Unicode, `parseSearch` cuts at blanks, line feeds
    and tabs only: other white space belongs to a piece, and trimming a search may take it
    off its first piece and off its last one.

    * `same_trimStart_iff`, `same_trimEnd_iff`: at one end, the search stays what it is
      exactly if such a piece is free text, and is neither a token nor in quotes without
      its white space;
    * `same_trim_iff`: the same at both ends, where one of them is in order. -/

namespace DevstackTrimmedSearch

open DevstackSplitting DevstackSearchParser DevstackSearchRoundTrip DevstackSearchEdits

/-- Neither a token nor free text in quotes. -/
def Plain (p : Text) : Prop := parseToken p = none ∧ parseQuotedValue p = none

/-- Not white space only. -/
def visible (p : Text) : Bool := p.any (fun c => !isSpace c)

/-- No white space is taken off the first visible piece, or it is free text and stays so. -/
def FlushStart (x : Text) : Prop :=
  ∀ p ∈ (pieces cutter x).find? visible, trimStart p = p ∨ Plain (trimStart p)

/-- Nor off the last one. -/
def FlushEnd (x : Text) : Prop :=
  ∀ p ∈ (pieces cutter x).reverse.find? visible,
    trimEnd p = p ∨ parseToken p = none ∧ Plain (trimEnd p)

/-- Trimming the search takes no white space off a piece but free text, which stays so. -/
structure Flush (x : Text) : Prop where
  front : FlushStart x
  back : FlushEnd (trimStart x)

-- ── white space ───────────────────────────────────────────────────────────────

theorem not_visible_iff {p : Text} : visible p = false ↔ ∀ c ∈ p, isSpace c = true := by
  rw [visible, List.any_eq_false]
  exact forall₂_congr fun c _ => by simp

theorem trimStart_append_space {s : Text} (hs : ∀ c ∈ s, isSpace c = true) (y : Text) :
    trimStart (s ++ y) = trimStart y :=
  List.dropWhile_append_of_pos hs

theorem trimStart_of_space {s : Text} (hs : ∀ c ∈ s, isSpace c = true) : trimStart s = [] := by
  have h := trimStart_append_space hs []
  rwa [List.append_nil] at h

theorem trimEnd_append_space {s : Text} (hs : ∀ c ∈ s, isSpace c = true) (y : Text) :
    trimEnd (y ++ s) = trimEnd y := by
  have hnil : trimEnd s = [] := List.rdropWhile_eq_nil_iff.mpr hs
  rw [trimEnd_append, if_pos hnil]

theorem trimStart_spec (p : Text) :
    ∃ s, p = s ++ trimStart p ∧ (∀ c ∈ s, isSpace c = true)
      ∧ (trimStart p = [] ∨ ∃ c cs, trimStart p = c :: cs ∧ isSpace c = false) := by
  refine ⟨p.takeWhile isSpace, (List.takeWhile_append_dropWhile ..).symm,
    fun c hc => List.mem_takeWhile_imp hc, ?_⟩
  cases hcut : trimStart p with
  | nil => exact Or.inl rfl
  | cons c cs =>
      have hhead := List.head?_dropWhile_not isSpace p
      rw [show p.dropWhile isSpace = c :: cs from hcut] at hhead
      exact Or.inr ⟨c, cs, rfl, by simpa using hhead⟩

theorem trimEnd_spec (p : Text) : ∃ s, p = trimEnd p ++ s ∧ ∀ c ∈ s, isSpace c = true := by
  induction p using List.reverseRecOn with
  | nil => exact ⟨[], rfl, by simp⟩
  | append_singleton p c ih =>
      cases hc : isSpace c with
      | true =>
          obtain ⟨s, hs, hspace⟩ := ih
          have hcut : trimEnd (p ++ [c]) = trimEnd p := List.rdropWhile_concat_pos _ _ _ hc
          refine ⟨s ++ [c], ?_, fun d hd => ?_⟩
          · rw [hcut, ← List.append_assoc, ← hs]
          · rcases List.mem_append.mp hd with hd | hd
            · exact hspace d hd
            · exact List.mem_singleton.mp hd ▸ hc
      | false =>
          have hcut : trimEnd (p ++ [c]) = p ++ [c] :=
            List.rdropWhile_concat_neg _ _ _ (by simp [hc])
          exact ⟨[], by rw [hcut, List.append_nil], by simp⟩

/-- White space takes no part in the reading of a piece. -/
theorem run_space {s : Text} (hs : ∀ c ∈ s, isSpace c = true) {st : Reading} {p : Text}
    (h : run cutter ⟨false, false⟩ (s ++ p) = some st) : run cutter ⟨false, false⟩ p = some st := by
  induction s with
  | nil => exact h
  | cons c s ih =>
      obtain ⟨hc, hs⟩ := List.forall_mem_cons.mp hs
      have hblank : isWhitespace c = false := not_blank_of_run (k := cutter) h
      have hnext : Reading.next ⟨false, false⟩ c = ⟨false, false⟩ := by
        have hslash : c ≠ '\\' := fun heq => by rw [heq] at hc; exact nomatch hc
        have hquote : c ≠ '"' := fun heq => by rw [heq] at hc; exact nomatch hc
        simp [Reading.next, hslash, hquote]
      rw [List.cons_append, run_step (Or.inl hblank), hnext] at h
      exact ih hs h

/-- What is read of the front of a piece, it is a piece by itself. -/
theorem whole_trimEnd {p : Text} (hp : Whole cutter p) (hne : trimEnd p ≠ []) :
    Whole cutter (trimEnd p) := by
  obtain ⟨s, hs, -⟩ := trimEnd_spec p
  obtain ⟨-, st, hrun⟩ := hp
  rw [hs] at hrun
  exact ⟨hne, run_prefix hrun⟩

theorem space_of_not_visible {p : Text} (h : visible p = false) : ∀ c ∈ p, isSpace c = true :=
  not_visible_iff.mp h

theorem trimStart_ne_nil {p : Text} (h : visible p = true) : trimStart p ≠ [] := by
  intro hnil
  have hspace : ∀ c ∈ p, isSpace c = true := List.dropWhile_eq_nil_iff.mp hnil
  rw [not_visible_iff.mpr hspace] at h
  exact nomatch h

theorem trimEnd_ne_nil {p : Text} (h : visible p = true) : trimEnd p ≠ [] := by
  intro hnil
  have hspace : ∀ c ∈ p, isSpace c = true := List.rdropWhile_eq_nil_iff.mp hnil
  rw [not_visible_iff.mpr hspace] at h
  exact nomatch h

theorem trimStart_append {p : Text} (h : visible p = true) (y : Text) :
    trimStart (p ++ y) = trimStart p ++ y := by
  rw [trimStart, List.dropWhile_append, if_neg]
  · rfl
  · rw [List.isEmpty_iff]
    exact trimStart_ne_nil h

-- ── the pieces of a trimmed search ────────────────────────────────────────────

/-- White space is taken off the front of the first visible piece, and what stands before
    that piece is left out. -/
theorem trimStart_cases (x : Text) :
    ((∀ p ∈ pieces cutter x, visible p = false) ∧ trimStart x = [])
      ∨ ∃ before p after, pieces cutter x = before ++ p :: after
        ∧ (∀ q ∈ before, visible q = false) ∧ visible p = true
        ∧ pieces cutter (trimStart x) = trimStart p :: after := by
  induction x using split_induction (k := cutter) with
  | nil => exact Or.inl ⟨by simp, rfl⟩
  | blank w cs hw ih =>
      have hcut : trimStart (w :: cs) = trimStart cs :=
        List.dropWhile_cons_of_pos (isSpace_of_isWhitespace hw)
      rw [pieces_blank hw, hcut]
      exact ih
  | last p hp =>
      rw [pieces_whole hp]
      cases hvisible : visible p with
      | false =>
          refine Or.inl ⟨?_, trimStart_of_space (space_of_not_visible hvisible)⟩
          simpa using hvisible
      | true =>
          obtain ⟨s, hs, hspace, -⟩ := trimStart_spec p
          obtain ⟨-, st, hrun⟩ := hp
          rw [hs] at hrun
          refine Or.inr ⟨[], p, [], rfl, by simp, hvisible, ?_⟩
          rw [pieces_whole ⟨trimStart_ne_nil hvisible, st, run_space hspace hrun⟩]
  | piece p w rest hp hw ih =>
      rw [pieces_closed hp hw]
      cases hvisible : visible p with
      | false =>
          rw [trimStart_append_space (space_of_not_visible hvisible),
            show trimStart (w :: rest) = trimStart rest from
              List.dropWhile_cons_of_pos (isSpace_of_isWhitespace hw)]
          rcases ih with ⟨hall, hnil⟩ | ⟨before, q, after, hpieces, hbefore, hq, htrim⟩
          · exact Or.inl ⟨List.forall_mem_cons.mpr ⟨hvisible, hall⟩, hnil⟩
          · exact Or.inr ⟨p :: before, q, after, by rw [hpieces]; rfl,
              List.forall_mem_cons.mpr ⟨hvisible, hbefore⟩, hq, htrim⟩
      | true =>
          obtain ⟨s, hs, hspace, -⟩ := trimStart_spec p
          obtain ⟨-, hrun⟩ := hp
          rw [hs] at hrun
          refine Or.inr ⟨[], p, pieces cutter rest, rfl, by simp, hvisible, ?_⟩
          rw [trimStart_append hvisible,
            pieces_closed ⟨trimStart_ne_nil hvisible, run_space hspace hrun⟩ hw]

/-- White space is taken off the end of the last visible piece, and what stands behind that
    piece is left out. -/
theorem trimEnd_cases (x : Text) :
    ((∀ p ∈ pieces cutter x, visible p = false) ∧ trimEnd x = [])
      ∨ ∃ before p after, pieces cutter x = before ++ p :: after
        ∧ (∀ q ∈ after, visible q = false) ∧ visible p = true
        ∧ pieces cutter (trimEnd x) = before ++ [trimEnd p] := by
  have hone : ∀ {w}, cutter.blank w = true → ∀ {cs : Text}, trimEnd cs = [] →
      trimEnd (w :: cs) = [] := by
    intro w hw cs hnil
    have hspace : ∀ c ∈ cs, isSpace c = true := List.rdropWhile_eq_nil_iff.mp hnil
    exact List.rdropWhile_eq_nil_iff.mpr
      (List.forall_mem_cons.mpr ⟨isSpace_of_isWhitespace hw, hspace⟩)
  have hmore : ∀ {cs : Text} (w), trimEnd cs ≠ [] → trimEnd (w :: cs) = w :: trimEnd cs := by
    intro cs w hne
    rw [← List.singleton_append, trimEnd_append, if_neg hne]
    rfl
  have hne : ∀ {cs : Text} {before p}, pieces cutter (trimEnd cs) = before ++ [p] →
      trimEnd cs ≠ [] := by
    intro cs before p hpieces hnil
    rw [hnil, pieces_nil] at hpieces
    simp at hpieces
  induction x using split_induction (k := cutter) with
  | nil => exact Or.inl ⟨by simp, rfl⟩
  | blank w cs hw ih =>
      rw [pieces_blank hw]
      rcases ih with ⟨hall, hnil⟩ | ⟨before, p, after, hpieces, hafter, hp, htrim⟩
      · exact Or.inl ⟨hall, hone hw hnil⟩
      · refine Or.inr ⟨before, p, after, hpieces, hafter, hp, ?_⟩
        rw [hmore w (hne htrim), pieces_blank hw, htrim]
  | last p hp =>
      rw [pieces_whole hp]
      cases hvisible : visible p with
      | false =>
          refine Or.inl ⟨by simpa using hvisible, ?_⟩
          exact List.rdropWhile_eq_nil_iff.mpr (space_of_not_visible hvisible)
      | true =>
          refine Or.inr ⟨[], p, [], rfl, by simp, hvisible, ?_⟩
          rw [pieces_whole (whole_trimEnd hp (trimEnd_ne_nil hvisible))]
          rfl
  | piece p w rest hp hw ih =>
      rw [pieces_closed hp hw]
      rcases ih with ⟨hall, hnil⟩ | ⟨before, q, after, hpieces, hafter, hq, htrim⟩
      · have hcut : trimEnd (p ++ w :: rest) = trimEnd p := by
          rw [trimEnd_append, if_pos (hone hw hnil)]
        rw [hcut]
        cases hvisible : visible p with
        | false =>
            exact Or.inl ⟨List.forall_mem_cons.mpr ⟨hvisible, hall⟩,
              List.rdropWhile_eq_nil_iff.mpr (space_of_not_visible hvisible)⟩
        | true =>
            refine Or.inr ⟨[], p, pieces cutter rest, rfl, hall, hvisible, ?_⟩
            rw [pieces_whole (whole_trimEnd hp.whole (trimEnd_ne_nil hvisible))]
            rfl
      · have hcut : trimEnd (p ++ w :: rest) = p ++ w :: trimEnd rest := by
          rw [trimEnd_append, hmore w (hne htrim), if_neg (List.cons_ne_nil _ _)]
        refine Or.inr ⟨p :: before, q, after, by rw [hpieces]; rfl, hafter, hq, ?_⟩
        rw [hcut, pieces_closed hp hw, htrim]
        rfl

-- ── the free text of a trimmed search ─────────────────────────────────────────

theorem plain_of_not_visible {p : Text} (h : visible p = false) : Plain p := by
  have hspace := space_of_not_visible h
  constructor
  · cases htoken : parseToken p with
    | none => rfl
    | some t =>
        obtain ⟨-, -, name, rawValue, hp, -⟩ := parseToken_some htoken
        have hcolon : ':' ∈ p := by rw [hp]; simp
        exact nomatch hspace ':' hcolon
  · refine parseQuotedValue_of_not_quoted ?_
    rintro ⟨rest, rfl⟩
    exact nomatch hspace '"' (List.mem_cons_self ..)

theorem Plain.freeSegment {p : Text} (h : Plain p) : freeSegment p = some p := by
  rw [segment_of_none h.1, decodeFreeTextSegment, h.2]
  rfl

/-- Pieces of white space only are free text. -/
theorem read_not_visible {ps : List Text} (h : ∀ p ∈ ps, visible p = false) :
    ps.filterMap filterOf = [] ∧ ps.filterMap freeSegment = ps := by
  constructor
  · exact no_filter_of_free fun p hp => (plain_of_not_visible (h p hp)).1
  · induction ps with
    | nil => rfl
    | cons p ps ih =>
        obtain ⟨hp, hps⟩ := List.forall_mem_cons.mp h
        rw [List.filterMap_cons_some (plain_of_not_visible hp).freeSegment, ih hps]

theorem trim_append_space {s : Text} (hs : ∀ c ∈ s, isSpace c = true) (y : Text) :
    trim (y ++ s) = trim y := by
  cases hvisible : visible y with
  | true => rw [trim, trimStart_append hvisible, trimEnd_append_space hs, trim]
  | false =>
      rw [trim, trimStart_append_space (space_of_not_visible hvisible), trimStart_of_space hs, trim,
        trimStart_of_space (space_of_not_visible hvisible)]

theorem trim_space_append {s : Text} (hs : ∀ c ∈ s, isSpace c = true) (y : Text) :
    trim (s ++ y) = trim y := by
  rw [trim, trimStart_append_space hs, trim]

theorem trim_of_space {s : Text} (hs : ∀ c ∈ s, isSpace c = true) : trim s = [] := by
  rw [trim, trimStart_of_space hs]
  rfl

theorem blank_space : ∀ c ∈ [' '], isSpace c = true :=
  List.forall_mem_singleton.mpr (by decide)

/-- Segments of white space at the front are trimmed. -/
theorem trim_joinBy_front {before : List Text} (h : ∀ p ∈ before, visible p = false)
    (ps : List Text) : trim (joinBy ' ' (before ++ ps)) = trim (joinBy ' ' ps) := by
  induction before with
  | nil => rfl
  | cons p before ih =>
      obtain ⟨hp, hbefore⟩ := List.forall_mem_cons.mp h
      have hspace := space_of_not_visible hp
      rw [← ih hbefore, List.cons_append]
      by_cases hnil : before ++ ps = []
      · rw [hnil]
        exact trim_of_space hspace
      · rw [joinBy_cons _ _ hnil, trim_space_append hspace, ← List.singleton_append,
          trim_space_append blank_space]

/-- And those at the end. -/
theorem trim_joinBy_back {after : List Text} (h : ∀ p ∈ after, visible p = false)
    (ps : List Text) : trim (joinBy ' ' (ps ++ after)) = trim (joinBy ' ' ps) := by
  induction after generalizing ps with
  | nil => rw [List.append_nil]
  | cons p after ih =>
      obtain ⟨hp, hafter⟩ := List.forall_mem_cons.mp h
      have hspace := space_of_not_visible hp
      have hmove : ps ++ p :: after = (ps ++ [p]) ++ after := by simp
      rw [hmove, ih hafter, joinBy_concat]
      by_cases hnil : ps = []
      · rw [hnil]
        exact trim_of_space hspace
      · rw [lead_eq_joinBy _ hnil, trim_append_space]
        exact List.forall_mem_cons.mpr ⟨by decide, hspace⟩

theorem lead_text (ps : List Text) (x : Text) : lead ' ' ps x = lead ' ' ps [] ++ x := by
  rw [← lead_append_text, List.nil_append]

theorem trim_lead (ps : List Text) : trim (lead ' ' ps []) = trim (joinBy ' ' ps) := by
  by_cases hnil : ps = []
  · rw [hnil]
    rfl
  · rw [lead_eq_joinBy _ hnil, trim_append_space blank_space]

/-- One segment among others. -/
theorem joinBy_middle (before after : List Text) :
    ∃ tail, ∀ p, joinBy ' ' (before ++ p :: after) = lead ' ' before [] ++ (p ++ tail) := by
  cases after with
  | nil => exact ⟨[], fun p => by rw [joinBy_concat, lead_text, List.append_nil]⟩
  | cons q after =>
      exact ⟨' ' :: joinBy ' ' (q :: after), fun p => by
        rw [joinBy_append _ _ (List.cons_ne_nil _ _), lead_text,
          joinBy_cons _ _ (List.cons_ne_nil _ _)]⟩

theorem length_trimEnd_append_le (y tail : Text) :
    (trimEnd (y ++ tail)).length ≤ y.length + (trimEnd tail).length := by
  have hle := length_trimEnd_le y
  rw [trimEnd_append]
  split
  · omega
  · rw [List.length_append]

theorem length_trim_append_le (front y : Text) :
    (trim (front ++ y)).length ≤ (trimEnd (trimStart front ++ y)).length := by
  obtain ⟨s, hs, hspace, -⟩ := trimStart_spec front
  have hcut : trimStart (front ++ y) = trimStart (trimStart front ++ y) := by
    conv_lhs => rw [hs, List.append_assoc, trimStart_append_space hspace]
  obtain ⟨s', hs', -⟩ := trimStart_spec (trimStart front ++ y)
  rw [trim, hcut]
  conv_rhs => rw [hs', trimEnd_append]
  split
  · next hnil => rw [hnil]; exact Nat.zero_le _
  · rw [List.length_append]; exact Nat.le_add_left _ _

/-- A text in which a part that is limited by no white space is made shorter, and what
    stands behind it is no longer. -/
theorem length_trim_lt (front : Text) {d q tail tail' : Text} (hlength : d.length < q.length)
    (hbegins : ∃ c cs, q = c :: cs ∧ isSpace c = false) (hends : trimEnd q = q)
    (htail : (trimEnd tail).length ≤ (trimEnd tail').length) :
    (trim (front ++ (d ++ tail))).length < (trim (front ++ (q ++ tail'))).length := by
  have hshort : (trim (front ++ (d ++ tail))).length
      ≤ (trimStart front).length + d.length + (trimEnd tail).length := by
    refine (length_trim_append_le front (d ++ tail)).trans ?_
    rw [← List.append_assoc]
    refine (length_trimEnd_append_le _ tail).trans ?_
    rw [List.length_append]
  have hq : q ≠ [] := by
    obtain ⟨c, cs, rfl, -⟩ := hbegins
    exact List.cons_ne_nil _ _
  have hbehind : trimEnd (q ++ tail') = q ++ trimEnd tail' := by
    rw [trimEnd_append]
    split
    · next hnil => rw [hnil, hends, List.append_nil]
    · rfl
  have hstart : trimStart (front ++ (q ++ tail')) = trimStart front ++ (q ++ tail') := by
    cases hvisible : visible front with
    | true => exact trimStart_append hvisible _
    | false =>
        obtain ⟨c, cs, rfl, hc⟩ := hbegins
        rw [trimStart_append_space (space_of_not_visible hvisible),
          trimStart_of_space (space_of_not_visible hvisible)]
        exact List.dropWhile_cons_of_neg (by simp [hc])
  have hlong : trim (front ++ (q ++ tail')) = trimStart front ++ (q ++ trimEnd tail') := by
    rw [trim, hstart, trimEnd_append, hbehind, if_neg (by simp [hq])]
  rw [hlong, List.length_append, List.length_append]
  omega

/-- What is trimmed at its end stays so at its front. -/
theorem trimEnd_trimStart {q : Text} (hne : q ≠ []) (hends : trimEnd q = q) :
    trimStart q ≠ [] ∧ trimEnd (trimStart q) = trimStart q := by
  obtain ⟨s, hs, hspace, -⟩ := trimStart_spec q
  have happend := hends
  rw [hs, trimEnd_append] at happend
  split at happend
  · have hall : trimEnd s = [] := List.rdropWhile_eq_nil_iff.mpr hspace
    rw [hall, ← hs] at happend
    exact absurd happend.symm hne
  · next hcut =>
      refine ⟨fun hnil => hcut ?_, List.append_cancel_left happend⟩
      rw [hnil]
      rfl

/-- A text that goes on with more than white space is longer. -/
theorem length_trim_lt_append (front : Text) {q : Text} (hne : q ≠ []) (hends : trimEnd q = q)
    (tail : Text) : (trim front).length < (trim (front ++ (q ++ tail))).length := by
  obtain ⟨s, hs, hspace, hbegins⟩ := trimStart_spec q
  obtain ⟨hcut, hcutEnds⟩ := trimEnd_trimStart hne hends
  have hpos : ([] : Text).length < (trimStart q).length := List.length_pos_iff.mpr hcut
  have htail : (trimEnd []).length ≤ (trimEnd tail).length := Nat.zero_le _
  have hlt := length_trim_lt (front ++ s) hpos (hbegins.resolve_left hcut) hcutEnds htail
  rw [List.append_nil, List.append_nil, trim_append_space hspace] at hlt
  conv_rhs => rw [hs, List.append_assoc, ← List.append_assoc]
  exact hlt

/-- What two texts that end alike are trimmed to, behind the same text. -/
theorem suffix_of_trim {front x p : Text} (hx : x ≠ []) (hxends : trimEnd x = x) (hp : p ≠ [])
    (hpends : trimEnd p = p) (h : trim (front ++ x) = trim (front ++ p)) :
    ∃ s, x = s ++ trimStart p := by
  have hread : ∀ {y : Text}, y ≠ [] → trimEnd y = y →
      trim (front ++ y) = if visible front then trimStart front ++ y else trimStart y := by
    intro y hne hends
    cases hvisible : visible front with
    | true => rw [trim, trimStart_append hvisible, trimEnd_append, hends, if_neg hne, if_pos rfl]
    | false =>
        rw [trim, trimStart_append_space (space_of_not_visible hvisible),
          (trimEnd_trimStart hne hends).2, if_neg Bool.false_ne_true]
  rw [hread hx hxends, hread hp hpends] at h
  split at h
  · obtain ⟨s, hs, -⟩ := trimStart_spec p
    exact ⟨s, (List.append_cancel_left h).trans hs⟩
  · obtain ⟨s, hs, -⟩ := trimStart_spec x
    exact ⟨s, h ▸ hs⟩

-- ── one piece changed ─────────────────────────────────────────────────────────

/-- A name before a colon is read off. -/
theorem name_inj {negated : Bool} {name name' rest rest' : Text} (h : ∀ c ∈ name, c ≠ ':')
    (h' : ∀ c ∈ name', c ≠ ':')
    (heq : sign negated ++ (name ++ ':' :: rest) = sign negated ++ (name' ++ ':' :: rest')) :
    name = name' ∧ rest = rest' := by
  have hbody := List.append_cancel_left heq
  have hname := congrArg (List.takeWhile (· ≠ ':')) hbody
  have hrest := congrArg (List.dropWhile (· ≠ ':')) hbody
  rw [takeWhile_colon h, takeWhile_colon h'] at hname
  rw [dropWhile_colon h, dropWhile_colon h'] at hrest
  exact ⟨hname, (List.cons.inj hrest).2⟩

/-- A longer value is another one. -/
theorem value_grows {raw s value : Text} (h : normalizeTokenValue raw = some value)
    (h' : normalizeTokenValue (raw ++ s) = some value) : s = [] := by
  by_contra hs
  rw [normalizeTokenValue] at h
  split at h
  · next hquote =>
      obtain ⟨rest, rfl⟩ := List.isPrefixOf_iff_prefix.mp hquote
      have hnone : normalizeTokenValue (['"'] ++ rest ++ s) = none := quotedRest_append h hs
      rw [hnone] at h'
      cases h'
  · next hquote =>
      split at h
      · cases h
      · next hne =>
          have hplain : normalizeTokenValue (raw ++ s) = some (raw ++ s) := by
            refine normalizeTokenValue_of_not_quoted (by simp [hne]) ?_
            rintro ⟨rest, hrest⟩
            obtain ⟨c, cs, rfl⟩ := List.exists_cons_of_ne_nil hne
            rw [(List.cons.inj hrest).1] at hquote
            exact hquote (by simp)
          rw [← h, hplain] at h'
          exact hs (by simpa using Option.some.inj h')

/-- And a longer token another one. -/
theorem token_grows {p s : Text} {t : Filter} (h : filterOf p = some t)
    (h' : filterOf (p ++ s) = some t) : s = [] := by
  obtain ⟨token, htoken, rfl⟩ := Option.map_eq_some_iff.mp h
  obtain ⟨token', htoken', hsame⟩ := Option.map_eq_some_iff.mp h'
  obtain ⟨-, -, name, raw, hp, -, hname, -, hvalue⟩ := parseToken_some htoken
  obtain ⟨-, -, name', raw', hp', -, hname', -, hvalue'⟩ := parseToken_some htoken'
  rw [congrArg Filter.negated hsame, hp, List.append_assoc, List.append_assoc, List.cons_append]
    at hp'
  rw [congrArg Filter.value hsame, ← (name_inj hname hname' hp').2] at hvalue'
  exact value_grows hvalue hvalue'

/-- What is in quotes begins and ends with one. -/
theorem limits_of_quoted {p d : Text} (h : parseQuotedValue p = some d) :
    (∃ cs, p = '"' :: cs) ∧ trimEnd p = p := by
  unfold parseQuotedValue at h
  split at h
  · obtain ⟨init, rfl⟩ := ends_of_quotedRest h
    refine ⟨⟨_, rfl⟩, ?_⟩
    rw [← List.cons_append]
    exact List.rdropWhile_concat_neg _ _ _ (by decide)
  · exact nomatch h

/-- A piece without white space at one end in place of the piece: what is read stays what it
    is exactly if both are free text, the one that is left not in quotes. -/
theorem swap_iff (before after : List Text) {p q : Text}
    (htoken : filterOf q = filterOf p → parseToken p = none) (hquoted : parseQuotedValue p = none)
    (hfree : trim (joinBy ' ' (before.filterMap freeSegment ++ q :: after.filterMap freeSegment))
      = trim (joinBy ' ' (before.filterMap freeSegment ++ p :: after.filterMap freeSegment))) :
    ((before ++ q :: after).filterMap filterOf = (before ++ p :: after).filterMap filterOf
      ∧ trim (joinBy ' ' ((before ++ q :: after).filterMap freeSegment))
        = trim (joinBy ' ' ((before ++ p :: after).filterMap freeSegment)))
      ↔ parseToken p = none ∧ Plain q := by
  constructor
  · rintro ⟨hfilters, hsegments⟩
    rw [List.filterMap_append, List.filterMap_append, filterMap_cons_toList, filterMap_cons_toList]
      at hfilters
    have hsame := List.append_cancel_right (List.append_cancel_left hfilters)
    have hfilter : filterOf q = filterOf p := by
      cases hq : filterOf q <;> cases hp : filterOf p <;> simp_all
    have hp := htoken hfilter
    have hq : parseToken q = none := by
      rw [filterOf, filterOf, hp] at hfilter
      exact Option.map_eq_none_iff.mp hfilter
    refine ⟨hp, hq, ?_⟩
    cases hquote : parseQuotedValue q with
    | none => rfl
    | some d =>
        -- without its quotes it is shorter
        obtain ⟨⟨cs, hcs⟩, hends⟩ := limits_of_quoted hquote
        obtain ⟨tail, hmiddle⟩ := joinBy_middle (before.filterMap freeSegment)
          (after.filterMap freeSegment)
        have hd : freeSegment q = some d := by
          rw [segment_of_none hq, decodeFreeTextSegment, hquote]
          rfl
        rw [List.filterMap_append, List.filterMap_append, List.filterMap_cons_some hd,
          List.filterMap_cons_some (Plain.freeSegment ⟨hp, hquoted⟩), ← hfree, hmiddle, hmiddle]
          at hsegments
        have hlt := length_trim_lt (lead ' ' (before.filterMap freeSegment) [])
          (length_parseQuotedValue hquote) ⟨'"', cs, hcs, by decide⟩ hends
          (le_refl (trimEnd tail).length)
        rw [hsegments] at hlt
        exact absurd hlt (lt_irrefl _)
  · rintro ⟨hp, hq⟩
    have hnone : ∀ {z}, parseToken z = none → filterOf z = none := fun {z} hz => by
      rw [filterOf, hz]
      rfl
    constructor
    · rw [List.filterMap_append, List.filterMap_append, List.filterMap_cons_none (hnone hp),
        List.filterMap_cons_none (hnone hq.1)]
    · rw [List.filterMap_append, List.filterMap_append, List.filterMap_cons_some hq.freeSegment,
        List.filterMap_cons_some (Plain.freeSegment ⟨hp, hquoted⟩), hfree]

-- ── the search trimmed ────────────────────────────────────────────────────────

/-- A piece that begins with white space is free text. -/
theorem plain_of_space {p : Text} (h : trimStart p ≠ p) : Plain p := by
  obtain ⟨c, cs, rfl, hc⟩ : ∃ c cs, p = c :: cs ∧ isSpace c = true := by
    cases p with
    | nil => exact absurd rfl h
    | cons c cs =>
        cases hc : isSpace c with
        | true => exact ⟨c, cs, rfl, hc⟩
        | false => exact absurd (List.dropWhile_cons_of_neg (by simp [hc])) h
  constructor
  · cases htoken : parseToken (c :: cs) with
    | none => rfl
    | some t =>
        obtain ⟨hgood, -, name, rawValue, hp, hlower, -⟩ := parseToken_some htoken
        have hsign : t.negated = false := by
          by_contra hneg
          rw [Bool.not_eq_false] at hneg
          rw [hneg] at hp
          rw [(List.cons.inj hp).1] at hc
          exact nomatch hc
        rw [hsign] at hp
        cases name with
        | nil =>
            rw [(List.cons.inj hp).1] at hc
            exact nomatch hc
        | cons d name =>
            have hname : isField (toLowerCase (d :: name)) = true := by
              rw [hlower]
              exact hgood.isField
            rw [(List.cons.inj hp).1, (mem_name hname d (List.mem_cons_self ..)).1] at hc
            exact nomatch hc
  · refine parseQuotedValue_of_not_quoted ?_
    rintro ⟨rest, hrest⟩
    rw [← (List.cons.inj hrest).1] at hc
    exact nomatch hc

/-- **THE FRONT**: without the white space at its front a search is what it was exactly if
    no piece there becomes a token or quotes. -/
theorem same_trimStart_iff (x : Text) : Same (trimStart x) x ↔ FlushStart x := by
  rw [same_iff, FlushStart]
  rcases trimStart_cases x with ⟨hall, hnil⟩ | ⟨before, p, after, hpieces, hbefore, hp, htrim⟩
  · obtain ⟨hfilters, hsegments⟩ := read_not_visible hall
    have hfind : (pieces cutter x).find? visible = none :=
      List.find?_eq_none.mpr fun p hp => by simp [hall p hp]
    have hjoin := trim_joinBy_front hall []
    rw [List.append_nil] at hjoin
    rw [hnil, pieces_nil, hfilters, hsegments, hjoin, hfind]
    simp
  · obtain ⟨hfilters, hsegments⟩ := read_not_visible hbefore
    have hfind : (pieces cutter x).find? visible = some p := by
      rw [hpieces, List.find?_append, List.find?_eq_none.mpr fun q hq => by simp [hbefore q hq],
        List.find?_cons_of_pos hp]
      rfl
    rw [hfind, hpieces, htrim, List.filterMap_append, hfilters, List.nil_append,
      List.filterMap_append, hsegments, trim_joinBy_front hbefore]
    by_cases hsame : trimStart p = p
    · simp [hsame]
    · have hplain := plain_of_space hsame
      obtain ⟨s, hs, hspace, -⟩ := trimStart_spec p
      have hfree : trim (joinBy ' ' ([] ++ trimStart p :: after.filterMap freeSegment))
          = trim (joinBy ' ' ([] ++ p :: after.filterMap freeSegment)) := by
        obtain ⟨tail, hmiddle⟩ := joinBy_middle [] (after.filterMap freeSegment)
        rw [hmiddle, hmiddle]
        conv_rhs => rw [hs, List.append_assoc]
        exact (trim_space_append hspace _).symm
      have hswap := swap_iff [] after (fun _ => hplain.1) hplain.2 hfree
      rw [List.nil_append, List.nil_append] at hswap
      rw [hswap]
      simp [hsame, hplain.1]

/-- **THE END**: without the white space at its end a search is what it was exactly if the
    piece there is free text and becomes neither a token nor quotes. -/
theorem same_trimEnd_iff (x : Text) : Same (trimEnd x) x ↔ FlushEnd x := by
  rw [same_iff, FlushEnd]
  rcases trimEnd_cases x with ⟨hall, hnil⟩ | ⟨before, p, after, hpieces, hafter, hp, htrim⟩
  · obtain ⟨hfilters, hsegments⟩ := read_not_visible hall
    have hfind : (pieces cutter x).reverse.find? visible = none :=
      List.find?_eq_none.mpr fun p hp => by simp [hall p (List.mem_reverse.mp hp)]
    have hjoin := trim_joinBy_front hall []
    rw [List.append_nil] at hjoin
    rw [hnil, pieces_nil, hfilters, hsegments, hjoin, hfind]
    simp
  · obtain ⟨hfilters, hsegments⟩ := read_not_visible hafter
    have hfind : (pieces cutter x).reverse.find? visible = some p := by
      rw [hpieces, List.reverse_append, List.reverse_cons, List.append_assoc, List.find?_append,
        List.find?_eq_none.mpr fun q hq => by simp [hafter q (List.mem_reverse.mp hq)],
        List.singleton_append, List.find?_cons_of_pos hp]
      rfl
    have hread : (pieces cutter x).filterMap filterOf = (before ++ [p]).filterMap filterOf
        ∧ (pieces cutter x).filterMap freeSegment
          = (before ++ [p]).filterMap freeSegment ++ after := by
      have hsplit : pieces cutter x = (before ++ [p]) ++ after := by rw [hpieces]; simp
      constructor
      · rw [hsplit, List.filterMap_append, hfilters, List.append_nil]
      · rw [hsplit, List.filterMap_append, hsegments]
    rw [hfind, htrim, hread.1, hread.2, trim_joinBy_back hafter]
    by_cases hsame : trimEnd p = p
    · simp [hsame]
    · obtain ⟨s, hs, hspace⟩ := trimEnd_spec p
      have hquoted : parseQuotedValue p = none := by
        cases hquote : parseQuotedValue p with
        | none => rfl
        | some d => exact absurd (limits_of_quoted hquote).2 hsame
      have hgrows : filterOf (trimEnd p) = filterOf p → parseToken p = none := by
        intro heq
        cases htoken : parseToken p with
        | none => rfl
        | some t =>
            have hfilter : filterOf p = some t.toFilter := by
              rw [filterOf, htoken]
              rfl
            rw [hfilter] at heq
            rw [hs] at hfilter
            rw [token_grows heq hfilter, List.append_nil] at hs
            exact absurd hs.symm hsame
      have hfree : trim (joinBy ' ' (before.filterMap freeSegment ++ [trimEnd p]))
          = trim (joinBy ' ' (before.filterMap freeSegment ++ [p])) := by
        rw [joinBy_concat, joinBy_concat]
        conv_rhs => rw [hs, lead_append_text, trim_append_space hspace]
      rw [swap_iff before [] hgrows hquoted hfree]
      simp [hsame]

/-- **BOTH ENDS**: a search that is trimmed is what it was if nothing but free text loses
    white space, and where one end is in order, only then. -/
theorem same_trim_iff (x : Text) :
    (Flush x → Same (trim x) x)
      ∧ (FlushStart x ∨ FlushEnd (trimStart x) → (Same (trim x) x ↔ Flush x)) := by
  have hback := same_trimEnd_iff (trimStart x)
  have hfront := same_trimStart_iff x
  have hflush : Flush x → Same (trim x) x := fun h =>
    (hback.mpr h.back).trans (hfront.mpr h.front)
  refine ⟨hflush, fun hone => ⟨fun h => ?_, hflush⟩⟩
  rcases hone with hone | hone
  · exact ⟨hone, hback.mp (h.trans (hfront.mpr hone).symm)⟩
  · exact ⟨hfront.mp ((hback.mpr hone).symm.trans h), hone⟩

end DevstackTrimmedSearch
