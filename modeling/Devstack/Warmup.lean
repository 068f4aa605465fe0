import Devstack.LogQuery
import Devstack.SourceRemoval

/-! # Warm-up — the first view of a big source

    A source with more than 32 files, or with more than 32 MiB, is not ingested while a view
    waits.  `source_logs_view` (`src/daemon/handlers/sources.rs`) ingests what
    `warmup_sources_for_query` (`src/daemon/source_ingest.rs`) selects, answers the query and
    leaves the rest to the backfill.

    The selection goes through the files, the newest first, until they have as many lines as
    the query asks for.  Where the files are rotated (the lines of a newer file are all later)
    the entries it shows are the entries after the backfill (`shown_before_backfill`).  The
    selection does not look at the service of the query: this is about queries for all of
    them. -/

namespace DevstackWarmup

open DevstackModel DevstackMachine DevstackLines DevstackLossyUtf8 DevstackIngest DevstackTopN
open DevstackIngestExact hiding Action step ingested fileBytes_step fileBytes_run
open DevstackRetention hiding Action step
open DevstackLogQuery
open DevstackLogLine (LineTools)
open DevstackLiveTail (lineFormat plainLines)
open DevstackSourceRemoval (sourcesAreCurrent)

-- ── source_ingest.rs ──────────────────────────────────────────────────────────

def sourceQueryWarmupMaxBytes : Nat := 16 * 1024 * 1024

def sourceQueryWarmupMaxFiles : Nat := 8

/-- `count_complete_lines_up_to`; it stops reading once there are as many as asked for. -/
def countCompleteLinesUpTo (bytes : List UInt8) (limit : Nat) : Nat :=
  min (bytes.count newline) limit

/-- Whether the filter may hide lines. -/
def selective (query : LogViewQuery) : Bool :=
  query.includeFacets
    || query.filter.search.any (fun value => !(trim value).isEmpty)
    || query.filter.level.any (fun value => !(trim value).isEmpty && value != "all")
    || query.filter.stream.any (fun value => !(trim value).isEmpty && value != "all")

def targetLines (query : LogViewQuery) : Nat := max (query.filter.last.getD 500) 1

/-- The variables of the loop of `warmup_sources_for_query`. -/
structure Selection where
  selected : List LogSource
  selectedBytes : Nat
  selectedLines : Nat

section Selecting

variable (files : BTreeMap (List UInt8)) (minTsNanos sinceNanos : Option Int) (selective : Bool)
  (targetLines : Nat)

/-- What the loop makes of a file that it selects. -/
def Selection.select (w : Selection) (file : SourceFile) : Selection where
  selected := w.selected ++ [file.source]
  selectedBytes := w.selectedBytes + file.len
  selectedLines :=
    if !selective && decide (w.selectedLines < targetLines) then
      w.selectedLines
        + countCompleteLinesUpTo (fileBytes files file.source) (targetLines - w.selectedLines)
    else w.selectedLines

/-- The loop over the files. -/
def selectFiles : Selection → List SourceFile → List LogSource
  | w, [] => w.selected
  | w, file :: rest =>
      if file.expired minTsNanos then selectFiles w rest
      else if sourceQueryWarmupMaxFiles ≤ w.selected.length
          ∨ sourceQueryWarmupMaxBytes ≤ w.selectedBytes then w.selected
      else if sinceNanos.any (fun since => decide (0 < file.modifiedNanos)
          && decide (file.modifiedNanos < since) && w.selected.isEmpty) then w.selected
      else
        let w := w.select files selective targetLines file
        if !selective && decide (targetLines ≤ w.selectedLines) then w.selected
        else if sinceNanos.isSome && decide (targetLines ≤ w.selectedLines) then w.selected
        else selectFiles w rest

end Selecting

section Views

variable (tools : LineTools) (ix : SearchIndex) (files : BTreeMap (List UInt8))
  (modified : String → Int) (minTsNanos : Option Int)

def warmupSourcesForQuery (sources : List LogSource) (query : LogViewQuery) : List LogSource :=
  if !query.includeEntries && !query.includeFacets then []
  else
    selectFiles files minTsNanos (query.filter.since.bind tools.timestampNanos) (selective query)
      (targetLines query) ⟨[], 0, 0⟩ (sourceFilesNewestFirst tools modified files sources)

/-- The index that the query of `source_logs_view` reads, if the source is a big one. -/
def warmed (sizes : LogSource → Nat → Nat) (sources : List LogSource) (query : LogViewQuery)
    (st : IngestState ix) : IngestState ix :=
  let warmupSources := warmupSourcesForQuery tools files modified minTsNanos sources query
  if !warmupSources.isEmpty && !sourcesAreCurrent files st warmupSources then
    ingestSourcesAfter ix (lineFormat tools) minTsNanos sizes files warmupSources st
  else st

end Views

variable {ix : SearchIndex}

/-- The entries of a view. -/
def entriesOf (queryTools : QueryTools) (hasFacetFields : Bool) (runId : String)
    (query : LogViewQuery) (st : IngestState ix) : Except String (List (LogEntry queryTools)) :=
  (queryView queryTools (ix.docs st.index) hasFacetFields runId query).map (·.entries)

-- ── runs ──────────────────────────────────────────────────────────────────────

inductive Action where
  /-- A writer appends to a file. -/
  | append (path : String) (bytes : List UInt8)
  /-- An ingest of some of the sources, for a view or of a batch of the backfill. -/
  | ingest (minTsNanos : Option Int) (chosen : LogSource → Bool) (sizes : LogSource → Nat → Nat)

section Runs

variable (tools : LineTools) (ix) (cat : Catalogue)

def step (w : World ix) : Action → World ix
  | .append path bytes =>
      { w with files := w.files.insert path (w.files[path]?.getD [] ++ bytes) }
  | .ingest minTsNanos chosen sizes =>
      { w with
        st := ingestSourcesAfter ix (lineFormat tools) minTsNanos sizes w.files
          (cat.sources.filter chosen) w.st }

end Runs

/-- A cutoff that lets through all that the other does. -/
def NotAfter : Option Int → Option Int → Prop
  | none, _ => True
  | some _, none => False
  | some earlier, some later => earlier ≤ later

instance : ∀ earlier later : Option Int, Decidable (NotAfter earlier later)
  | none, _ => inferInstanceAs (Decidable True)
  | some _, none => inferInstanceAs (Decidable False)
  | some earlier, some later => inferInstanceAs (Decidable (earlier ≤ later))

/-- The cutoff of an ingest is not later: time does not go back. -/
def Action.NotAfter (minTsNanos : Option Int) : Action → Prop
  | .append _ _ => True
  | .ingest earlier _ _ => DevstackWarmup.NotAfter earlier minTsNanos

instance (minTsNanos : Option Int) : ∀ a : Action, Decidable (a.NotAfter minTsNanos)
  | .append _ _ => inferInstanceAs (Decidable True)
  | .ingest earlier _ _ => inferInstanceAs (Decidable (DevstackWarmup.NotAfter earlier minTsNanos))

-- ── what the selection relies on ──────────────────────────────────────────────

section Conditions

variable (tools : LineTools) (files : BTreeMap (List UInt8)) (minTsNanos : Option Int)

/-- The documents of the lines of a source. -/
def linesOf (s : LogSource) : List PendingDoc :=
  docsFrom (lineFormat tools) s 0 (textLines (fileBytes files s))

/-- No line is blank, and none is before the cutoff. -/
structure Dense (s : LogSource) : Prop where
  lines : (linesOf tools files s).length = (fileBytes files s).count newline
  kept : ∀ d ∈ linesOf tools files s, keeps minTsNanos d = true

/-- The lines of a file are all later than those of the files behind it. -/
def Rotated (newest : List SourceFile) : Prop :=
  newest.Pairwise (fun newer older =>
    ∀ d ∈ linesOf tools files newer.source, ∀ e ∈ linesOf tools files older.source,
      e.tsNanos < d.tsNanos)

/-- The first `k` files have the lines asked for, or are all there are, and the limits of the
    selection come behind them. -/
structure InReach (targetLines k : Nat) (newest : List SourceFile) : Prop where
  count : k ≤ sourceQueryWarmupMaxFiles
  bytes : ∀ i < k, ((newest.take i).map (·.len)).sum < sourceQueryWarmupMaxBytes
  lines : targetLines ≤ ((newest.take k).map
      (fun file => (fileBytes files file.source).count newline)).sum
    ∨ newest.length ≤ k
  dense : ∀ file ∈ newest.take k, Dense tools files minTsNanos file.source

instance (s : LogSource) : Decidable (Dense tools files minTsNanos s) :=
  decidable_of_iff ((linesOf tools files s).length = (fileBytes files s).count newline
      ∧ ∀ d ∈ linesOf tools files s, keeps minTsNanos d = true)
    ⟨fun h => ⟨h.1, h.2⟩, fun h => ⟨h.lines, h.kept⟩⟩

instance (newest : List SourceFile) : Decidable (Rotated tools files newest) :=
  inferInstanceAs (Decidable (newest.Pairwise _))

instance (targetLines k : Nat) (newest : List SourceFile) :
    Decidable (InReach tools files minTsNanos targetLines k newest) :=
  decidable_of_iff (k ≤ sourceQueryWarmupMaxFiles
      ∧ (∀ i < k, ((newest.take i).map (·.len)).sum < sourceQueryWarmupMaxBytes)
      ∧ (targetLines ≤ ((newest.take k).map
          (fun file => (fileBytes files file.source).count newline)).sum ∨ newest.length ≤ k)
      ∧ ∀ file ∈ newest.take k, Dense tools files minTsNanos file.source)
    ⟨fun h => ⟨h.1, h.2.1, h.2.2.1, h.2.2.2⟩, fun h => ⟨h.count, h.bytes, h.lines, h.dense⟩⟩

end Conditions

/-- A query that asks for the last lines of all services. -/
structure Unfiltered (query : LogViewQuery) : Prop where
  service : query.service = none
  since : query.filter.since = none
  selective : selective query = false
  stream : ∀ stream, query.filter.stream = some stream → stream = "" ∨ stream = "all"
  tail : query.filter.tail ≤ usizeMax

/-! ## What the loop selects -/

section Selecting

variable {files : BTreeMap (List UInt8)} {minTsNanos : Option Int} {target : Nat}

/-- The lines of some files. -/
def countLines (files : BTreeMap (List UInt8)) (newest : List SourceFile) : Nat :=
  (newest.map (fun file => (fileBytes files file.source).count newline)).sum

/-- Expired files are passed over. -/
theorem selectFiles_filter (sinceNanos : Option Int) (chooses : Bool) (newest : List SourceFile) :
    ∀ w : Selection, selectFiles files minTsNanos sinceNanos chooses target w newest
      = selectFiles files none sinceNanos chooses target w
          (newest.filter (fun file => !file.expired minTsNanos)) := by
  induction newest with
  | nil =>
      intro w
      rfl
  | cons file newest ih =>
      intro w
      by_cases hexpired : file.expired minTsNanos = true
      · rw [List.filter_cons_of_neg (by simp [hexpired]), selectFiles, if_pos hexpired]
        exact ih w
      · rw [List.filter_cons_of_pos (by simpa using hexpired), selectFiles, selectFiles,
          if_neg hexpired, if_neg (show ¬ file.expired none = true from Bool.false_ne_true)]
        dsimp only
        rw [ih]

variable (files target) in
/-- Without limits in the way the loop takes files until it has the lines, or all. -/
theorem selectFiles_take (newest : List SourceFile) :
    ∀ (k : Nat) (w : Selection), w.selectedLines < target →
      w.selected.length + k ≤ sourceQueryWarmupMaxFiles →
      (∀ i < k, w.selectedBytes + ((newest.take i).map (·.len)).sum < sourceQueryWarmupMaxBytes) →
      (target ≤ w.selectedLines + countLines files (newest.take k) ∨ newest.length ≤ k) →
        ∃ j ≤ k, selectFiles files none none false target w newest
            = w.selected ++ (newest.take j).map (·.source)
          ∧ (target ≤ w.selectedLines + countLines files (newest.take j)
            ∨ newest.length ≤ j) := by
  induction newest with
  | nil =>
      intro k w _ _ _ _
      exact ⟨0, Nat.zero_le k, by simp [selectFiles], Or.inr (Nat.zero_le _)⟩
  | cons file newest ih =>
      intro k w hlines hfiles hbytes hreach
      cases k with
      | zero =>
          rcases hreach with hreach | hreach
          · rw [List.take_zero] at hreach
            exact absurd hlines (Nat.not_lt_of_ge hreach)
          · exact absurd hreach (by simp)
      | succ k =>
          have hlen : ¬ (sourceQueryWarmupMaxFiles ≤ w.selected.length
              ∨ sourceQueryWarmupMaxBytes ≤ w.selectedBytes) := by
            have hbyte := hbytes 0 (Nat.succ_pos k)
            rw [List.take_zero, List.map_nil, List.sum_nil] at hbyte
            omega
          have hcount : ∀ i, countLines files ((file :: newest).take (i + 1))
              = (fileBytes files file.source).count newline + countLines files (newest.take i) := by
            intro i
            rfl
          have hselect : (w.select files false target file).selectedLines
              = w.selectedLines + min ((fileBytes files file.source).count newline)
                  (target - w.selectedLines) := by
            show (if !false && decide (w.selectedLines < target) then _ else _) = _
            rw [if_pos (by simpa using hlines)]
            rfl
          rw [selectFiles, if_neg (show ¬ file.expired none = true from Bool.false_ne_true),
            if_neg hlen, if_neg (show ¬ Option.any _ none = true from Bool.false_ne_true)]
          dsimp only
          by_cases henough : target ≤ (w.select files false target file).selectedLines
          · refine ⟨1, Nat.succ_le_succ (Nat.zero_le k), ?_, Or.inl ?_⟩
            · rw [if_pos (by simpa using henough)]
              rfl
            · rw [hcount 0]
              omega
          · have hnow : (w.select files false target file).selectedLines
                = w.selectedLines + (fileBytes files file.source).count newline := by
              omega
            have hfiles' : (w.select files false target file).selected.length + k
                ≤ sourceQueryWarmupMaxFiles := by
              show (w.selected ++ [file.source]).length + k ≤ sourceQueryWarmupMaxFiles
              rw [List.length_append, List.length_singleton]
              omega
            have hbytes' : ∀ i < k, (w.select files false target file).selectedBytes
                + ((newest.take i).map (·.len)).sum < sourceQueryWarmupMaxBytes := by
              intro i hi
              have hbyte := hbytes (i + 1) (Nat.succ_lt_succ hi)
              rw [List.take_succ_cons, List.map_cons, List.sum_cons] at hbyte
              show w.selectedBytes + file.len + _ < sourceQueryWarmupMaxBytes
              omega
            have hreach' : target ≤ (w.select files false target file).selectedLines
                + countLines files (newest.take k) ∨ newest.length ≤ k := by
              rw [hcount k] at hreach
              rcases hreach with hreach | hreach
              · exact Or.inl (by omega)
              · exact Or.inr (by rw [List.length_cons] at hreach; omega)
            obtain ⟨j, hj, hselected, hreached⟩ :=
              ih k _ (Nat.lt_of_not_le henough) hfiles' hbytes' hreach'
            refine ⟨j + 1, Nat.succ_le_succ hj, ?_, ?_⟩
            · rw [if_neg (by simpa using henough), if_neg (by simp), hselected]
              show (w.selected ++ [file.source]) ++ _ = _
              rw [List.append_assoc]
              rfl
            · rw [hcount j]
              rw [hnow] at hreached
              rcases hreached with hreached | hreached
              · exact Or.inl (by omega)
              · exact Or.inr (by rw [List.length_cons]; omega)

end Selecting

/-! ## What is indexed of a log -/

section Source

variable {fmt : LineFormat} {s : LogSource} {minTsNanos : Option Int}

theorem keeps_of_notAfter {earlier later : Option Int} (h : NotAfter earlier later)
    {d : PendingDoc} (hd : keeps later d = true) : keeps earlier d = true := by
  cases earlier with
  | none => rfl
  | some a =>
      cases later with
      | none => exact False.elim h
      | some b =>
          have hab : a ≤ b := h
          simp only [keeps, Bool.not_eq_true', decide_eq_false_iff_not, not_lt] at hd ⊢
          exact le_trans hab hd

/-- The index has lines of a finished beginning of the log, all that the cutoff lets through
    among them, and its cursor stands behind it. -/
structure CaughtTo (fmt : LineFormat) (minTsNanos : Option Int) (s : LogSource)
    (bytes done : List UInt8) (indexed : SourceIndex) : Prop where
  before : done <+: bytes
  finished : rest newline done = []
  through : (kept minTsNanos (docsFrom fmt s 0 (textLines done))).Sublist indexed.docs
  lines : indexed.docs.Sublist (docsFrom fmt s 0 (textLines done))
  cursor : indexed.cursor = ⟨done.length, (textLines done).length⟩

variable {bytes done : List UInt8} {indexed : SourceIndex}

theorem CaughtTo.grown (h : CaughtTo fmt minTsNanos s bytes done indexed) {more : List UInt8}
    (hgrow : bytes <+: more) : CaughtTo fmt minTsNanos s more done indexed where
  before := h.before.trans hgrow
  finished := h.finished
  through := h.through
  lines := h.lines
  cursor := h.cursor

/-- What an earlier cutoff lets through has all that the later one does. -/
theorem kept_sublist {earlier : Option Int} (h : NotAfter earlier minTsNanos)
    (docs : List PendingDoc) : (kept minTsNanos docs).Sublist (kept earlier docs) := by
  have hboth : kept minTsNanos docs = kept minTsNanos (kept earlier docs) := by
    rw [kept, kept, kept, List.filter_filter]
    refine List.filter_congr ?_
    intro d _
    cases hd : keeps minTsNanos d with
    | false => rfl
    | true => rw [keeps_of_notAfter h hd]; rfl
  rw [hboth]
  exact List.filter_sublist

/-- An ingest goes on to the last line break. -/
theorem CaughtTo.after (h : CaughtTo fmt minTsNanos s bytes done indexed)
    {file : Option (List UInt8)} (hfile : file.getD [] = bytes)
    (hutf8 : isUtf8 (completePart newline bytes) = true) {earlier : Option Int}
    (hcut : NotAfter earlier minTsNanos) :
    CaughtTo fmt minTsNanos s bytes (completePart newline bytes)
      (sourceAfter fmt earlier s file indexed) := by
  cases file with
  | none =>
      obtain rfl : [] = bytes := hfile
      obtain rfl : done = [] := List.prefix_nil.mp h.before
      exact h
  | some content =>
      obtain rfl : content = bytes := hfile
      obtain ⟨new, rfl⟩ := h.before
      have hcomplete := completePart_append newline h.finished new
      rw [hcomplete, isUtf8_append_finished h.finished, Bool.and_eq_true] at hutf8
      have hlong : ¬ (done ++ new).length < indexed.cursor.offset := by
        rw [h.cursor, List.length_append]
        show ¬ done.length + new.length < done.length
        omega
      rw [hcomplete, sourceAfter]
      rw [startCursor, if_neg hlong, h.cursor]
      dsimp only
      rw [List.drop_left, collectedTo]
      split
      · next hnil =>
          rw [hnil, List.append_nil]
          exact h
      · have hbelow : indexed.docs.filter (fun d => decide (d.seq < (textLines done).length))
            = indexed.docs := by
          refine List.filter_eq_self.mpr ?_
          intro d hd
          have hlt := (docsFrom_mem fmt s (h.lines.subset hd)).2.2
          exact decide_eq_true (by omega)
        have hlines := textLines_append h.finished (completePart newline new)
        dsimp only
        rw [hbelow]
        constructor
        · exact ⟨openPart newline new, by
            rw [List.append_assoc, completePart_append_openPart]⟩
        · rw [(lines_append newline h.finished _).2, rest_completePart]
        · rw [hlines, docsFrom_append, kept_append, Nat.zero_add]
          exact h.through.append (kept_sublist hcut _)
        · rw [hlines, docsFrom_append, Nat.zero_add]
          exact h.lines.append List.filter_sublist
        · rw [hlines, strLen_of_isUtf8 hutf8.2, List.length_append, List.length_append]

/-- What is indexed are lines of the log. -/
theorem CaughtTo.mem (h : CaughtTo fmt minTsNanos s bytes done indexed) {d : PendingDoc}
    (hd : d ∈ indexed.docs) : d ∈ docsFrom fmt s 0 (textLines bytes) := by
  obtain ⟨new, rfl⟩ := h.before
  rw [textLines_append h.finished, docsFrom_append]
  exact List.mem_append_left _ (h.lines.subset hd)

/-- At the last line break, with no line cut off, these are all of them. -/
theorem CaughtTo.whole
    (h : CaughtTo fmt minTsNanos s bytes (completePart newline bytes) indexed)
    (hkept : ∀ d ∈ docsFrom fmt s 0 (textLines bytes), keeps minTsNanos d = true) :
    indexed.docs = docsFrom fmt s 0 (textLines bytes) := by
  have hthrough := h.through
  have hlines := h.lines
  rw [textLines_completePart] at hthrough hlines
  rw [kept, List.filter_eq_self.mpr hkept] at hthrough
  exact hlines.antisymm hthrough

end Source

/-! ## Runs -/

section Runs

variable {tools : LineTools} {cat : Catalogue} {minTsNanos : Option Int} {s : LogSource}

/-- The same of a source in an index. -/
def Caught (tools : LineTools) (minTsNanos : Option Int) (files : BTreeMap (List UInt8))
    (st : IngestState ix) (s : LogSource) : Prop :=
  ∃ done, CaughtTo (lineFormat tools) minTsNanos s (fileBytes files s) done (sourceIndex ix st s)

/-- All documents are of the sources. -/
def Owned (cat : Catalogue) (st : IngestState ix) : Prop :=
  ∀ d ∈ ix.docs st.index, ∃ s ∈ cat.sources, d.runId = s.runId ∧ d.service = s.service

theorem caught_start (files : BTreeMap (List UInt8)) :
    Caught tools minTsNanos files (World.start ix files).st s := by
  have hdocs : docsOf (ix.docs (World.start ix files).st.index) s = [] := by
    show docsOf (ix.docs ix.empty) s = []
    rw [ix.docs_empty]
    rfl
  refine ⟨[], List.nil_prefix, rfl, List.nil_sublist _, ?_, ?_⟩
  · rw [sourceIndex, hdocs]
    exact List.nil_sublist _
  · show ((∅ : BTreeMap IngestCursor)[sourceKey s]?).getD .default = _
    simp [IngestCursor.default]
    rfl

theorem owned_start (files : BTreeMap (List UInt8)) :
    Owned cat (World.start ix files).st := by
  intro d hd
  have hnone : d ∈ ix.docs ix.empty := hd
  rw [ix.docs_empty] at hnone
  cases hnone

/-- After an ingest of a source, it is caught up to the last line break of its log. -/
theorem caughtTo_ingested {files : BTreeMap (List UInt8)} {st : IngestState ix}
    {sources : List LogSource} (hnodup : (sources.map sourceKey).Nodup) (hs : s ∈ sources)
    (sizes : LogSource → Nat → Nat) (h : Caught tools minTsNanos files st s)
    (hutf8 : isUtf8 (completePart newline (fileBytes files s)) = true) {earlier : Option Int}
    (hcut : NotAfter earlier minTsNanos) :
    CaughtTo (lineFormat tools) minTsNanos s (fileBytes files s)
      (completePart newline (fileBytes files s))
      (sourceIndex ix (ingestSourcesAfter ix (lineFormat tools) earlier sizes files sources st)
        s) := by
  obtain ⟨done, hdone⟩ := h
  rw [(ingestSourcesAfter_sourceIndex ix (lineFormat tools) earlier sizes files hnodup st).1 s hs]
  exact hdone.after rfl hutf8 hcut

theorem caught_ingest {files : BTreeMap (List UInt8)} {st : IngestState ix}
    {sources : List LogSource} (hnodup : (sources.map sourceKey).Nodup)
    (hsub : ∀ t ∈ sources, t ∈ cat.sources) (hs : s ∈ cat.sources)
    (sizes : LogSource → Nat → Nat) (h : Caught tools minTsNanos files st s)
    (hutf8 : isUtf8 (completePart newline (fileBytes files s)) = true) {earlier : Option Int}
    (hcut : NotAfter earlier minTsNanos) :
    Caught tools minTsNanos files
      (ingestSourcesAfter ix (lineFormat tools) earlier sizes files sources st) s := by
  by_cases hmem : s ∈ sources
  · exact ⟨_, caughtTo_ingested hnodup hmem sizes h hutf8 hcut⟩
  · have hkey : sourceKey s ∉ sources.map sourceKey := by
      intro hkey
      obtain ⟨t, ht, he⟩ := List.mem_map.mp hkey
      exact hmem (List.inj_on_of_nodup_map cat.keys (hsub t ht) hs he ▸ ht)
    rw [Caught, (ingestSourcesAfter_sourceIndex ix (lineFormat tools) earlier sizes files hnodup
      st).2 s hkey]
    exact h

theorem owned_ingest {fmt : LineFormat} {files : BTreeMap (List UInt8)} {st : IngestState ix}
    {sources : List LogSource} (hsub : ∀ t ∈ sources, t ∈ cat.sources)
    (sizes : LogSource → Nat → Nat) (h : Owned cat st) (earlier : Option Int) :
    Owned cat (ingestSourcesAfter ix fmt earlier sizes files sources st) := by
  refine (ingestSourcesAfter_within ix fmt earlier sizes files (K := fun _ => True) h
    (fun _ _ => trivial) ?_).1
  intro t ht
  refine ⟨?_, trivial⟩
  intro d hrun hservice
  exact ⟨t, hsub t ht, hrun, hservice⟩

theorem fileBytes_step (w : World ix) (a : Action) (s : LogSource) :
    fileBytes w.files s <+: fileBytes (step ix tools cat w a).files s := by
  cases a with
  | append path bytes =>
      rw [step, fileBytes_append]
      split
      · exact List.prefix_append _ _
      · exact List.prefix_rfl
  | ingest earlier chosen sizes => exact List.prefix_rfl

theorem fileBytes_run (actions : List Action) (w : World ix) (s : LogSource) :
    fileBytes w.files s <+: fileBytes (run (step ix tools cat) w actions).files s := by
  induction actions generalizing w with
  | nil => exact List.prefix_rfl
  | cons a actions ih => exact (fileBytes_step w a s).trans (ih _)

theorem owned_step {w : World ix} (h : Owned cat w.st) (a : Action) :
    Owned cat (step ix tools cat w a).st := by
  cases a with
  | append path bytes => exact h
  | ingest earlier chosen sizes =>
      exact owned_ingest (fun t ht => (List.mem_filter.mp ht).1) sizes h earlier

theorem caught_step {w : World ix} (hs : s ∈ cat.sources)
    (h : Caught tools minTsNanos w.files w.st s) {a : Action} (hcut : a.NotAfter minTsNanos)
    (hutf8 : isUtf8 (completePart newline
      (fileBytes (step ix tools cat w a).files s)) = true) :
    Caught tools minTsNanos (step ix tools cat w a).files (step ix tools cat w a).st s := by
  cases a with
  | append path bytes =>
      obtain ⟨done, hdone⟩ := h
      exact ⟨done, hdone.grown (fileBytes_step w (.append path bytes) s)⟩
  | ingest earlier chosen sizes =>
      exact caught_ingest (chosen_keys chosen) (fun t ht => (List.mem_filter.mp ht).1) hs sizes h
        hutf8 hcut

theorem owned_run (files : BTreeMap (List UInt8)) (actions : List Action) :
    Owned cat (run (step ix tools cat) (World.start ix files) actions).st :=
  @run_invariant (World ix) Action (step ix tools cat) (fun w => Owned cat w.st)
    (fun _ a h => owned_step h a) actions _ (owned_start files)

/-- **LOGS ARE CAUGHT ALONG RUNS** of appends and of ingests with earlier cutoffs. -/
theorem caught_run (files : BTreeMap (List UInt8)) (actions : List Action)
    (hcut : ∀ a ∈ actions, a.NotAfter minTsNanos) (hs : s ∈ cat.sources)
    (hutf8 : isUtf8 (completePart newline
      (fileBytes (run (step ix tools cat) (World.start ix files) actions).files s)) = true) :
    let w := run (step ix tools cat) (World.start ix files) actions
    Caught tools minTsNanos w.files w.st s := by
  have hrun : ∀ (actions : List Action) (w : World ix), (∀ a ∈ actions, a.NotAfter minTsNanos) →
      isUtf8 (completePart newline
        (fileBytes (run (step ix tools cat) w actions).files s)) = true →
        Caught tools minTsNanos w.files w.st s →
          Caught tools minTsNanos (run (step ix tools cat) w actions).files
            (run (step ix tools cat) w actions).st s := by
    intro actions
    induction actions with
    | nil =>
        intro w _ _ hcaught
        exact hcaught
    | cons a actions ih =>
        intro w hcut hutf8 hcaught
        have hnow := isUtf8_of_initial
          (@fileBytes_run ix tools cat actions (step ix tools cat w a) s) hutf8
        exact ih _ (fun b hb => hcut b (List.mem_cons_of_mem a hb)) hutf8
          (caught_step hs hcaught (hcut a List.mem_cons_self) hnow)
  exact hrun actions _ hcut hutf8 (caught_start files)

end Runs

/-! ## The entries of a view -/

section Entries

variable {queryTools : QueryTools} {runId : String} {query : LogViewQuery}

/-- The documents of a run. -/
def ofRun (runId : String) (docs : List PendingDoc) : List PendingDoc :=
  docs.filter (fun d => d.runId == runId)

theorem trim_all : trim "all" ≠ "error" ∧ trim "all" ≠ "warn" := by decide +kernel

/-- A level that does not make the query selective filters nothing. -/
theorem level_unfiltered {level : Option String}
    (h : level.any (fun value => !(trim value).isEmpty && value != "all") = false)
    (base : PendingDoc → Bool) (doc : PendingDoc) :
    addLevelFilter base (level.getD "all") doc = base doc := by
  have hother : trim (level.getD "all") ≠ "error" ∧ trim (level.getD "all") ≠ "warn" := by
    cases level with
    | none => exact trim_all
    | some value =>
        show trim value ≠ "error" ∧ trim value ≠ "warn"
        by_cases hall : value = "all"
        · rw [hall]
          exact trim_all
        · have hblank : trim value = "" := by
            simpa [hall] using h
          rw [hblank]
          decide
  rw [addLevelFilter]
  rw [if_neg (not_or.mpr hother), Bool.and_true]

theorem text_unfiltered {search : Option String}
    (h : search.any (fun value => !(trim value).isEmpty) = false) (base : PendingDoc → Bool) :
    addTextQuery queryTools base search = .ok base := by
  cases search with
  | none => rfl
  | some value =>
      have hblank : (trim value).isEmpty = true := by simpa using h
      rw [addTextQuery]
      rw [if_pos hblank]

theorem resultQuery_unfiltered (h : Unfiltered query) :
    ∃ result, resultQuery queryTools runId query.service query.filter none = .ok result
      ∧ ∀ docs : List PendingDoc, docs.filter result = ofRun runId docs := by
  have hselective := h.selective
  rw [selective, Bool.or_eq_false_iff, Bool.or_eq_false_iff, Bool.or_eq_false_iff] at hselective
  obtain ⟨⟨⟨-, hsearch⟩, hlevel⟩, -⟩ := hselective
  refine ⟨_, text_unfiltered hsearch _, ?_⟩
  intro docs
  refine List.filter_congr ?_
  intro doc _
  rw [level_unfiltered hlevel, h.service, h.since]
  have hstream : query.filter.stream.all
      (fun stream => stream.isEmpty || stream == "all" || doc.stream == stream) = true := by
    cases hstream : query.filter.stream with
    | none => rfl
    | some stream =>
        rcases h.stream stream hstream with rfl | rfl
        · rfl
        · simp
  simp [buildScopeQuery, hstream]

theorem viewSearch_hidden {facets total : Bool} {n : Nat} {docs : List PendingDoc} :
    (viewSearch false facets total n docs).chosen = [] := by
  cases facets with
  | true => rfl
  | false =>
      cases total with
      | true => rfl
      | false => rfl

/-- The entries of such a query are told by the last documents of the run. -/
theorem entriesOf_congr (h : Unfiltered query) {st st' : IngestState ix} {facets facets' : Bool}
    (hlast : query.includeEntries = true →
      newestByTime query.filter.tail (ofRun runId (ix.docs st.index))
        = newestByTime query.filter.tail (ofRun runId (ix.docs st'.index))) :
    entriesOf queryTools facets runId query st = entriesOf queryTools facets' runId query st' := by
  obtain ⟨result, hresult, hfilter⟩ := @resultQuery_unfiltered queryTools runId query h
  simp only [entriesOf, queryView, hresult, hfilter, Except.map]
  cases hentries : query.includeEntries with
  | false => rw [Bool.false_and, viewSearch_hidden, viewSearch_hidden]
  | true =>
      rw [Bool.true_and]
      cases hzero : decide (0 < query.filter.tail) with
      | false => rw [viewSearch_hidden, viewSearch_hidden]
      | true => rw [viewSearch_chosen h.tail, viewSearch_chosen h.tail, hlast hentries]

end Entries

/-! ## Two indexes of the same logs -/

section Agreement

variable {tools : LineTools} {files : BTreeMap (List UInt8)} {sources : List LogSource}
  {runId : String} {docs docs' : List PendingDoc}

/-- The documents of the run are lines of the logs of its sources. -/
structure Lines (tools : LineTools) (files : BTreeMap (List UInt8)) (sources : List LogSource)
    (runId : String) (docs : List PendingDoc) : Prop where
  owned : ∀ d ∈ docs, d.runId = runId → ∃ s ∈ sources, d.service = s.service
  lines : ∀ s ∈ sources, ∀ d ∈ docsOf docs s, d ∈ linesOf tools files s

/-- No two sources have lines of one timestamp. -/
def Apart (tools : LineTools) (files : BTreeMap (List UInt8)) (sources : List LogSource) : Prop :=
  ∀ s ∈ sources, ∀ t ∈ sources, ∀ d ∈ linesOf tools files s, ∀ e ∈ linesOf tools files t,
    d.tsNanos = e.tsNanos → s = t

/-- The documents of a timestamp are those of the source that has it. -/
theorem group_ofRun {s : LogSource} (hs : s.runId = runId) {t : Int}
    (h : ∀ d ∈ docs, d.runId = runId → d.tsNanos = t → d.service = s.service) :
    group PendingDoc.tsNanos t (ofRun runId docs) = group PendingDoc.tsNanos t (docsOf docs s) := by
  rw [group, group, ofRun, docsOf, List.filter_filter, List.filter_filter]
  refine List.filter_congr ?_
  intro d hd
  rw [hs]
  by_cases hkey : d.tsNanos = t
  · by_cases hrun : d.runId = runId
    · simp [hkey, hrun, h d hd hrun hkey]
    · rw [beq_eq_false_iff_ne.mpr hrun, Bool.false_and]
  · simp [hkey]

/-- **WHERE TWO INDEXES AGREE**: on a timestamp, if they agree on the source that has it. -/
theorem group_agrees (hruns : ∀ s ∈ sources, s.runId = runId)
    (h : Lines tools files sources runId docs) (h' : Lines tools files sources runId docs')
    (hapart : Apart tools files sources) {t : Int}
    (hsame : ∀ s ∈ sources, docsOf docs s = docsOf docs' s
      ∨ ∀ d ∈ linesOf tools files s, d.tsNanos ≠ t) :
    group PendingDoc.tsNanos t (ofRun runId docs)
      = group PendingDoc.tsNanos t (ofRun runId docs') := by
  by_cases hex : ∃ s ∈ sources, ∃ d ∈ linesOf tools files s, d.tsNanos = t
  · obtain ⟨s, hs, d, hd, hkey⟩ := hex
    have howner : ∀ {docs : List PendingDoc}, Lines tools files sources runId docs →
        ∀ e ∈ docs, e.runId = runId → e.tsNanos = t → e.service = s.service := by
      intro docs h e he hrun hekey
      obtain ⟨r, hr, hservice⟩ := h.owned e he hrun
      have hmem := h.lines r hr e (mem_docsOf.mpr ⟨he, hrun.trans (hruns r hr).symm, hservice⟩)
      rw [hservice, hapart r hr s hs e hmem d hd (hekey.trans hkey.symm)]
    rw [group_ofRun (hruns s hs) (howner h), group_ofRun (hruns s hs) (howner h')]
    rcases hsame s hs with heq | hnone
    · rw [heq]
    · exact absurd hkey (hnone d hd)
  · have hnone : ∀ {docs : List PendingDoc}, Lines tools files sources runId docs →
        group PendingDoc.tsNanos t (ofRun runId docs) = [] := by
      intro docs h
      refine List.eq_nil_iff_forall_not_mem.mpr ?_
      intro e he
      obtain ⟨he, hkey⟩ := (mem_group _).mp he
      obtain ⟨he, hrun⟩ := List.mem_filter.mp he
      have hrun := beq_iff_eq.mp hrun
      obtain ⟨r, hr, hservice⟩ := h.owned e he hrun
      exact hex ⟨r, hr, e,
        h.lines r hr e (mem_docsOf.mpr ⟨he, hrun.trans (hruns r hr).symm, hservice⟩), hkey⟩
    rw [hnone h, hnone h']

/-- The documents of some sources are among those that have what all of theirs have. -/
theorem sum_docsOf_le (p : PendingDoc → Bool) {selected : List LogSource}
    (hnodup : (selected.map sourceKey).Nodup) :
    ∀ docs : List PendingDoc, (∀ s ∈ selected, ∀ d ∈ docsOf docs s, p d = true) →
      (selected.map (fun s => (docsOf docs s).length)).sum ≤ (docs.filter p).length := by
  induction selected with
  | nil =>
      intro docs _
      exact Nat.zero_le _
  | cons s selected ih =>
      intro docs h
      rw [List.map_cons, List.nodup_cons] at hnodup
      have hown : (docs.filter p).filter (fun d => d.runId == s.runId && d.service == s.service)
          = docsOf docs s := by
        rw [List.filter_filter, docsOf]
        refine List.filter_congr ?_
        intro d hd
        by_cases hd' : (d.runId == s.runId && d.service == s.service) = true
        · rw [hd', h s List.mem_cons_self d (List.mem_filter.mpr ⟨hd, hd'⟩)]
          rfl
        · rw [Bool.eq_false_iff.mpr hd', Bool.false_and]
      have hrest : ∀ t ∈ selected,
          docsOf (docs.filter (fun d => !(d.runId == s.runId && d.service == s.service))) t
            = docsOf docs t := by
        intro t ht
        have hne : sourceKey t ≠ sourceKey s := fun he =>
          hnodup.1 (he ▸ List.mem_map_of_mem ht)
        rw [docsOf, docsOf, List.filter_filter]
        refine List.filter_congr ?_
        intro d _
        by_cases hd : (d.runId == t.runId && d.service == t.service) = true
        · rw [hd, not_of_source_of_ne hne hd]
          rfl
        · rw [Bool.eq_false_iff.mpr hd, Bool.false_and]
      have hsum : (selected.map (fun t => (docsOf docs t).length)).sum
          ≤ ((docs.filter p).filter
              (fun d => !(d.runId == s.runId && d.service == s.service))).length := by
        rw [List.filter_comm]
        rw [show selected.map (fun t => (docsOf docs t).length)
          = selected.map (fun t => (docsOf (docs.filter
              (fun d => !(d.runId == s.runId && d.service == s.service))) t).length) from
          List.map_congr_left fun t ht => by rw [hrest t ht]]
        refine ih hnodup.2 _ ?_
        intro t ht d hd
        rw [hrest t ht] at hd
        exact h t (List.mem_cons_of_mem s ht) d hd
      have hsplit := (docs.filter p).length_eq_length_filter_add
        (fun d => d.runId == s.runId && d.service == s.service)
      rw [hown] at hsplit
      rw [List.map_cons, List.sum_cons]
      omega

end Agreement

/-! ## Before and after the backfill -/

section Views

variable {tools : LineTools} {cat : Catalogue} {files : BTreeMap (List UInt8)}
  {modified : String → Int} {minTsNanos : Option Int} {sources selected : List LogSource}
  {st : IngestState ix} {s : LogSource}

variable (tools modified) in
theorem mem_newest (hs : s ∈ sources) {bytes : List UInt8} (hfile : files[s.path]? = some bytes) :
    ∃ file ∈ sourceFilesNewestFirst tools modified files sources, file.source = s := by
  have hmem : s ∈ ((sourceFilesNewestFirst tools modified files sources).filter
      (fun _ => true)).map (·.source) := by
    refine mem_newestFirst.mpr ⟨hs, ?_⟩
    rw [sourceFile, hfile]
    rfl
  obtain ⟨file, hmem, hsource⟩ := List.mem_map.mp hmem
  exact ⟨file, (List.mem_filter.mp hmem).1, hsource⟩

/-- A source with lines has a file. -/
theorem file_of_lines {d : PendingDoc} (hd : d ∈ linesOf tools files s) :
    ∃ bytes, files[s.path]? = some bytes := by
  cases hfile : files[s.path]? with
  | some bytes => exact ⟨bytes, rfl⟩
  | none =>
      rw [linesOf, fileBytes, hfile] at hd
      cases hd

/-- Rotated files have no timestamp in common. -/
theorem apart_of_rotated
    (h : Rotated tools files (sourceFilesNewestFirst tools modified files sources)) :
    Apart tools files sources := by
  intro s hs t ht d hd e he heq
  obtain ⟨bytes, hfile⟩ := file_of_lines hd
  obtain ⟨bytes', hfile'⟩ := file_of_lines he
  obtain ⟨a, ha, rfl⟩ := mem_newest tools modified hs hfile
  obtain ⟨b, hb, rfl⟩ := mem_newest tools modified ht hfile'
  have hdiffer : (sourceFilesNewestFirst tools modified files sources).Pairwise
      (fun a b => ∀ d ∈ linesOf tools files a.source, ∀ e ∈ linesOf tools files b.source,
        d.tsNanos ≠ e.tsNanos) :=
    h.imp fun hlt d hd e he => ne_of_gt (hlt d hd e he)
  have hsymm : Std.Symm (fun a b : SourceFile => ∀ d ∈ linesOf tools files a.source,
      ∀ e ∈ linesOf tools files b.source, d.tsNanos ≠ e.tsNanos) :=
    ⟨fun _ _ hne d hd e he => (hne e he d hd).symm⟩
  by_cases hab : a = b
  · rw [hab]
  · exact absurd heq (hdiffer.forall ha hb hab d hd e he)

/-- The selected sources are caught up to their ends, and the others are still caught. -/
structure Warm (tools : LineTools) (cat : Catalogue) (minTsNanos : Option Int)
    (files : BTreeMap (List UInt8)) (sources selected : List LogSource) (st : IngestState ix) :
    Prop where
  selected : ∀ s ∈ selected, CaughtTo (lineFormat tools) minTsNanos s (fileBytes files s)
    (completePart newline (fileBytes files s)) (sourceIndex ix st s)
  caught : ∀ s ∈ sources, Caught tools minTsNanos files st s
  owned : Owned cat st

/-- A log whose cursor is at its end is caught up to it. -/
theorem caughtTo_current (h : Caught tools minTsNanos files st s) {bytes : List UInt8}
    (hfile : files[s.path]? = some bytes)
    (hcurrent : st.cursors[sourceKey s]?.any (fun cursor => cursor.offset == bytes.length)
      = true) :
    CaughtTo (lineFormat tools) minTsNanos s (fileBytes files s)
      (completePart newline (fileBytes files s)) (sourceIndex ix st s) := by
  obtain ⟨done, hdone⟩ := h
  have hbytes : fileBytes files s = bytes := by
    rw [fileBytes, hfile]
    rfl
  have hlength : done.length = (fileBytes files s).length := by
    cases hcursor : st.cursors[sourceKey s]? with
    | none =>
        rw [hcursor] at hcurrent
        cases hcurrent
    | some cursor =>
        rw [hcursor] at hcurrent
        have hoffset : cursor.offset = bytes.length := beq_iff_eq.mp hcurrent
        have hstored : cursor = ⟨done.length, (textLines done).length⟩ := by
          rw [← hdone.cursor]
          show cursor = storedCursor st.cursors s
          rw [storedCursor, hcursor]
          rfl
        rw [hbytes, ← hoffset, hstored]
  have hall : done = fileBytes files s := hdone.before.eq_of_length hlength
  have hfinished := hdone.finished
  rw [hall] at hdone hfinished
  have hwhole : completePart newline (fileBytes files s) = fileBytes files s := by
    have hunique : completePart newline (fileBytes files s ++ []) = fileBytes files s :=
      completePart_unique newline hfinished (by simp)
    rwa [List.append_nil] at hunique
  rw [hwhole]
  exact hdone

/-- What `warmed` leaves, whether or not it ingests. -/
theorem warm_warmed (hsub : ∀ s ∈ sources, s ∈ cat.sources)
    (hselected : ∀ s ∈ selected, s ∈ sources) (hnodup : (selected.map sourceKey).Nodup)
    (hfiles : ∀ s ∈ selected, ∃ bytes, files[s.path]? = some bytes)
    (hcaught : ∀ s ∈ sources, Caught tools minTsNanos files st s) (howned : Owned cat st)
    (hutf8 : ∀ s ∈ sources, isUtf8 (completePart newline (fileBytes files s)) = true)
    (hcut : NotAfter minTsNanos minTsNanos) (sizes : LogSource → Nat → Nat) :
    Warm tools cat minTsNanos files sources selected
      (if !selected.isEmpty && !sourcesAreCurrent files st selected then
        ingestSourcesAfter ix (lineFormat tools) minTsNanos sizes files selected st
      else st) := by
  have hcat : ∀ s ∈ selected, s ∈ cat.sources := fun s hs => hsub s (hselected s hs)
  split
  · constructor
    · intro s hs
      exact caughtTo_ingested hnodup hs sizes (hcaught s (hselected s hs))
        (hutf8 s (hselected s hs)) hcut
    · intro s hs
      exact caught_ingest hnodup hcat (hsub s hs) sizes (hcaught s hs) (hutf8 s hs) hcut
    · exact owned_ingest hcat sizes howned minTsNanos
  · next hskip =>
      refine ⟨?_, hcaught, howned⟩
      intro s hs
      obtain ⟨bytes, hfile⟩ := hfiles s hs
      refine caughtTo_current (hcaught s (hselected s hs)) hfile ?_
      have hnonempty : selected.isEmpty = false := by
        cases selected with
        | nil => cases hs
        | cons t rest => rfl
      have hcurrent : sourcesAreCurrent files st selected = true := by
        simpa [hnonempty] using hskip
      have hone := List.all_eq_true.mp hcurrent s hs
      rw [hfile] at hone
      exact hone

/-- The backfill ingests batch by batch. -/
theorem owned_batches (h : Owned cat st) (hsub : ∀ s ∈ sources, s ∈ cat.sources)
    (sizes : LogSource → Nat → Nat) :
    Owned cat (ingestSourcesInPriorityBatches tools ix minTsNanos sizes modified files sources
      st) := by
  have hfold : ∀ (batches : List (List LogSource)) (st : IngestState ix),
      (∀ s ∈ batches.flatten, s ∈ cat.sources) → Owned cat st →
        Owned cat (batches.foldl (fun st batch =>
          ingestSourcesAfter ix (lineFormat tools) minTsNanos sizes files batch st) st) := by
    intro batches
    induction batches with
    | nil =>
        intro st _ h
        exact h
    | cons batch batches ih =>
        intro st hbatches h
        rw [List.flatten_cons] at hbatches
        exact ih _ (fun s hs => hbatches s (List.mem_append_right _ hs))
          (owned_ingest (fun s hs => hbatches s (List.mem_append_left _ hs)) sizes h minTsNanos)
  rw [ingestSourcesInPriorityBatches]
  dsimp only
  refine hfold _ _ ?_ ?_
  · intro s hs
    rw [(prioritySourceBatches_files minTsNanos _).1] at hs
    exact hsub s (mem_newestFirst.mp hs).1
  · split
    · exact h
    · exact h

variable (modified) in
/-- What the backfill leaves of a source: the documents that it had, or all the lines that the
    cutoff lets through. -/
theorem backfilled (hnodup : (sources.map sourceKey).Nodup) (hs : s ∈ sources)
    (h : Caught tools minTsNanos files st s)
    (hutf8 : isUtf8 (completePart newline (fileBytes files s)) = true)
    (hcut : NotAfter minTsNanos minTsNanos) (sizes : LogSource → Nat → Nat) :
    let full := ingestSourcesInPriorityBatches tools ix minTsNanos sizes modified files sources st
    docsOf (ix.docs full.index) s = docsOf (ix.docs st.index) s
      ∨ ((sourceFile tools modified files s).any (fun file => !file.expired minTsNanos) = true
        ∧ CaughtTo (lineFormat tools) minTsNanos s (fileBytes files s)
            (completePart newline (fileBytes files s)) (sourceIndex ix full s)) := by
  intro full
  have hafter : sourceIndex ix full s
      = if (sourceFile tools modified files s).any (SourceFile.expired minTsNanos) = true then
          skippedAfter files[s.path]? (sourceIndex ix st s)
        else sourceAfter (lineFormat tools) minTsNanos s files[s.path]? (sourceIndex ix st s) :=
    (ingestSourcesInPriorityBatches_sourceIndex ix minTsNanos sizes modified files hnodup st).1
      s hs
  by_cases hexpired : (sourceFile tools modified files s).any (SourceFile.expired minTsNanos) = true
  · rw [if_pos hexpired] at hafter
    refine Or.inl ?_
    show (sourceIndex ix full s).docs = _
    rw [hafter]
    cases files[s.path]? with
    | none => rfl
    | some bytes => rfl
  · rw [if_neg hexpired] at hafter
    cases hfile : files[s.path]? with
    | none =>
        refine Or.inl ?_
        show (sourceIndex ix full s).docs = _
        rw [hafter, hfile]
        rfl
    | some bytes =>
        refine Or.inr ⟨?_, ?_⟩
        · rw [sourceFile, hfile] at hexpired ⊢
          simpa using hexpired
        · obtain ⟨done, hdone⟩ := h
          rw [hafter]
          exact hdone.after rfl hutf8 hcut

end Views

/-! ## The first view -/

section Main

variable {tools : LineTools} {cat : Catalogue} {files : BTreeMap (List UInt8)}
  {modified : String → Int} {minTsNanos : Option Int} {sources : List LogSource}
  {st full : IngestState ix} {unexpired : List SourceFile} {s : LogSource} {runId : String}

theorem notAfter_refl (minTsNanos : Option Int) : NotAfter minTsNanos minTsNanos := by
  cases minTsNanos with
  | none => trivial
  | some minTs => exact le_refl minTs

/-- The lines of files without blank lines. -/
theorem countLines_eq {newest : List SourceFile}
    (h : ∀ file ∈ newest, Dense tools files minTsNanos file.source) :
    countLines files newest
      = ((newest.map (·.source)).map (fun s => (linesOf tools files s).length)).sum := by
  rw [countLines, List.map_map]
  congr 1
  refine List.map_congr_left ?_
  intro file hfile
  exact (h file hfile).lines.symm

/-- What the selection of a query without filters is. -/
theorem warmup_selection {query : LogViewQuery} (hquery : Unfiltered query)
    (hentries : query.includeEntries = true)
    (hunexpired : unexpired = (sourceFilesNewestFirst tools modified files sources).filter
      (fun file => !file.expired minTsNanos))
    {k : Nat} (hreach : InReach tools files minTsNanos (targetLines query) k unexpired) :
    ∃ j ≤ k, warmupSourcesForQuery tools files modified minTsNanos sources query
        = (unexpired.take j).map (·.source)
      ∧ (targetLines query ≤ countLines files (unexpired.take j) ∨ unexpired.length ≤ j) := by
  have hselect : warmupSourcesForQuery tools files modified minTsNanos sources query
      = selectFiles files none none false (targetLines query) ⟨[], 0, 0⟩ unexpired := by
    rw [warmupSourcesForQuery, hentries, hquery.since, hquery.selective, hunexpired]
    exact selectFiles_filter none false _ ⟨[], 0, 0⟩
  obtain ⟨j, hj, hselected, hreached⟩ := selectFiles_take files
    (targetLines query) _ k ⟨[], 0, 0⟩
    (show 0 < targetLines query from lt_of_lt_of_le Nat.zero_lt_one (le_max_right _ _))
    (show 0 + k ≤ _ by rw [Nat.zero_add]; exact hreach.count)
    (fun i hi => show 0 + _ < _ by rw [Nat.zero_add]; exact hreach.bytes i hi)
    (show _ ≤ 0 + _ ∨ _ by rw [Nat.zero_add]; exact hreach.lines)
  refine ⟨j, hj, hselect.trans (hselected.trans (List.nil_append _)), ?_⟩
  rcases hreached with hlines | hall
  · exact Or.inl (by simpa using hlines)
  · exact Or.inr hall

/-- The files that are not expired are files of the sources. -/
theorem source_of_unexpired {file : SourceFile}
    (h : file ∈ (sourceFilesNewestFirst tools modified files sources).filter
      (fun file => !file.expired minTsNanos)) :
    file.source ∈ sources ∧ ∃ bytes, files[file.source.path]? = some bytes := by
  obtain ⟨hs, hany⟩ := mem_newestFirst.mp (List.mem_map_of_mem (f := (·.source)) h)
  refine ⟨hs, ?_⟩
  cases hfile : files[file.source.path]? with
  | some bytes => exact ⟨bytes, rfl⟩
  | none =>
      rw [sourceFile, hfile] at hany
      cases hany

/-- Files with lines have an earliest one. -/
theorem earliest_line {newest : List SourceFile}
    (hdense : ∀ file ∈ newest, Dense tools files minTsNanos file.source)
    (hpositive : 0 < countLines files newest) :
    ∃ file ∈ newest, ∃ d ∈ linesOf tools files file.source,
      ∀ other ∈ newest, ∀ e ∈ linesOf tools files other.source, d.tsNanos ≤ e.tsNanos := by
  cases hmin : ((newest.flatMap (fun file => linesOf tools files file.source)).map
      PendingDoc.tsNanos).min? with
  | none =>
      rw [List.min?_eq_none_iff, List.map_eq_nil_iff, List.flatMap_eq_nil_iff] at hmin
      rw [countLines_eq hdense, List.map_map] at hpositive
      have hzero : (newest.map
          ((fun s => (linesOf tools files s).length) ∘ (·.source))).sum = 0 := by
        refine List.sum_eq_zero ?_
        intro m hm
        obtain ⟨file, hfile, rfl⟩ := List.mem_map.mp hm
        exact List.length_eq_zero_iff.mpr (hmin file hfile)
      omega
  | some first =>
      obtain ⟨hfirst, hle⟩ := List.min?_eq_some_iff.mp hmin
      obtain ⟨d, hd, rfl⟩ := List.mem_map.mp hfirst
      obtain ⟨file, hfile, hd⟩ := List.mem_flatMap.mp hd
      refine ⟨file, hfile, d, hd, ?_⟩
      intro other hother e he
      exact hle e.tsNanos (List.mem_map_of_mem (List.mem_flatMap.mpr ⟨other, hother, he⟩))

/-- An index with all lines of some files has as many documents as they have lines. -/
theorem countLines_le {newest : List SourceFile} {docs : List PendingDoc} (p : PendingDoc → Bool)
    (hdense : ∀ file ∈ newest, Dense tools files minTsNanos file.source)
    (hnodup : ((newest.map (·.source)).map sourceKey).Nodup)
    (hwhole : ∀ file ∈ newest, docsOf docs file.source = linesOf tools files file.source)
    (hp : ∀ file ∈ newest, ∀ d ∈ docsOf docs file.source, p d = true) :
    countLines files newest ≤ (docs.filter p).length := by
  have hcount : countLines files newest
      = ((newest.map (·.source)).map (fun s => (docsOf docs s).length)).sum := by
    rw [countLines_eq hdense, List.map_map, List.map_map]
    congr 1
    refine List.map_congr_left ?_
    intro file hfile
    show (linesOf tools files file.source).length = _
    rw [← hwhole file hfile]
    rfl
  refine hcount.trans_le (sum_docsOf_le p hnodup docs ?_)
  intro s hs
  obtain ⟨file, hfile, rfl⟩ := List.mem_map.mp hs
  exact hp file hfile

/-- The documents of a run are lines of the logs, if those of each of its sources are. -/
theorem lines_of_owned (h : Owned cat st)
    (hruns : ∀ s ∈ cat.sources, s.runId = runId → s ∈ sources)
    (hlines : ∀ s ∈ sources, ∀ d ∈ docsOf (ix.docs st.index) s, d ∈ linesOf tools files s) :
    Lines tools files sources runId (ix.docs st.index) := by
  constructor
  · intro d hd hrun
    obtain ⟨s, hs, hsrun, hservice⟩ := h d hd
    exact ⟨s, hruns s hs (hsrun.symm.trans hrun), hservice⟩
  · exact hlines

/-- The backfill changes the documents of no source but those behind the selected files: all
    lines of the selected ones are in the index already. -/
theorem same_or_behind
    (hunexpired : unexpired = (sourceFilesNewestFirst tools modified files sources).filter
      (fun file => !file.expired minTsNanos))
    {j : Nat} (hdense : ∀ file ∈ unexpired.take j, Dense tools files minTsNanos file.source)
    (hwhole : ∀ file ∈ unexpired.take j,
      docsOf (ix.docs st.index) file.source = linesOf tools files file.source)
    (hs : s ∈ sources)
    (hback : docsOf (ix.docs full.index) s = docsOf (ix.docs st.index) s
      ∨ ((sourceFile tools modified files s).any (fun file => !file.expired minTsNanos) = true
        ∧ CaughtTo (lineFormat tools) minTsNanos s (fileBytes files s)
            (completePart newline (fileBytes files s)) (sourceIndex ix full s))) :
    docsOf (ix.docs st.index) s = docsOf (ix.docs full.index) s
      ∨ ∃ file ∈ unexpired.drop j, file.source = s := by
  rcases hback with hsame | ⟨hany, hdone⟩
  · exact Or.inl hsame.symm
  · have hmem : s ∈ unexpired.map (·.source) := by
      rw [hunexpired]
      exact mem_newestFirst.mpr ⟨hs, hany⟩
    obtain ⟨file, hfile, rfl⟩ := List.mem_map.mp hmem
    rw [← List.take_append_drop j unexpired] at hfile
    rcases List.mem_append.mp hfile with hfile | hfile
    · rw [hwhole file hfile]
      exact Or.inl (hdone.whole (hdense file hfile).kept).symm
    · exact Or.inr ⟨file, hfile, rfl⟩

/-- **THE LAST LINES ARE SELECTED.**  Where the index is caught and the files are rotated, the
    last documents of the run after the selected files are the last after all of them. -/
theorem last_selected (hruns : ∀ s ∈ cat.sources, s.runId = runId → s ∈ sources)
    (hsources : ∀ s ∈ sources, s ∈ cat.sources ∧ s.runId = runId)
    (hnodup : (sources.map sourceKey).Nodup)
    (hutf8 : ∀ s ∈ sources, isUtf8 (completePart newline (fileBytes files s)) = true)
    (hrotated : Rotated tools files (sourceFilesNewestFirst tools modified files sources))
    (hunexpired : unexpired = (sourceFilesNewestFirst tools modified files sources).filter
      (fun file => !file.expired minTsNanos))
    {j n : Nat} (hdense : ∀ file ∈ unexpired.take j, Dense tools files minTsNanos file.source)
    (hreached : (0 < countLines files (unexpired.take j)
        ∧ n ≤ countLines files (unexpired.take j)) ∨ unexpired.length ≤ j)
    (hwarm : Warm tools cat minTsNanos files sources ((unexpired.take j).map (·.source)) st)
    (sizes : LogSource → Nat → Nat) :
    newestByTime n (ofRun runId (ix.docs st.index))
      = newestByTime n (ofRun runId (ix.docs (ingestSourcesInPriorityBatches tools ix minTsNanos
          sizes modified files sources st).index)) := by
  have howned : Owned cat (ingestSourcesInPriorityBatches tools ix minTsNanos sizes modified files
      sources st) := owned_batches hwarm.owned (fun s hs => (hsources s hs).1) sizes
  have hback := fun s hs => backfilled modified hnodup hs (hwarm.caught s hs)
    (hutf8 s hs) (notAfter_refl minTsNanos) sizes
  generalize ingestSourcesInPriorityBatches tools ix minTsNanos sizes modified files sources st
    = full at howned hback ⊢
  have hlines : Lines tools files sources runId (ix.docs st.index) := by
    refine lines_of_owned hwarm.owned hruns ?_
    intro s hs d hd
    obtain ⟨done, hdone⟩ := hwarm.caught s hs
    exact hdone.mem hd
  have hlines' : Lines tools files sources runId (ix.docs full.index) := by
    refine lines_of_owned howned hruns ?_
    intro s hs d hd
    rcases hback s hs with hsame | ⟨-, hdone⟩
    · rw [hsame] at hd
      exact hlines.lines s hs d hd
    · exact hdone.mem hd
  have hwhole : ∀ file ∈ unexpired.take j,
      docsOf (ix.docs st.index) file.source = linesOf tools files file.source := by
    intro file hfile
    exact (hwarm.selected file.source (List.mem_map_of_mem hfile)).whole (hdense file hfile).kept
  have hsame := fun s hs => same_or_behind hunexpired hdense hwhole hs (hback s hs)
  have hown : ∀ s ∈ sources, s.runId = runId := fun s hs => (hsources s hs).2
  have hagree := fun t => group_agrees (t := t) hown hlines hlines' (apart_of_rotated hrotated)
  rcases hreached with ⟨hpositive, hn⟩ | hall
  · obtain ⟨newer, hnewer, d, hd, hfirst⟩ := earliest_line hdense hpositive
    refine top_congr PendingDoc.tsNanos (k := d.tsNanos) ?_ ?_
    · -- from the earliest selected line on, the other files have no lines
      intro t ht
      refine hagree t ?_
      intro s hs
      rcases hsame s hs with hsame | ⟨older, holder, rfl⟩
      · exact Or.inl hsame
      · refine Or.inr ?_
        intro e he
        have hpairs := hrotated.filter (fun file => !file.expired minTsNanos)
        rw [← hunexpired, ← List.take_append_drop j unexpired, List.pairwise_append] at hpairs
        exact ne_of_lt (lt_of_lt_of_le (hpairs.2.2 newer hnewer older holder d hd e he) ht)
    · rw [ofRun, List.filter_filter]
      refine hn.trans (countLines_le _ hdense ?_ hwhole ?_)
      · rw [hunexpired]
        exact (newestFirst_keys hnodup _).sublist (((List.take_sublist j _).map _).map _)
      · intro file hfile e he
        have hmem := List.mem_of_mem_take hfile
        rw [hunexpired] at hmem
        have hrun := (mem_docsOf.mp he).2.1.trans (hown _ (source_of_unexpired hmem).1)
        rw [hwhole file hfile] at he
        rw [Bool.and_eq_true, decide_eq_true_eq, beq_iff_eq]
        exact ⟨hfirst file hfile e he, hrun⟩
  · have hnone : unexpired.drop j = [] := List.drop_eq_nil_of_le hall
    show (descending PendingDoc.tsNanos _).take n = (descending PendingDoc.tsNanos _).take n
    rw [descending_congr PendingDoc.tsNanos]
    intro t
    refine hagree t ?_
    intro s hs
    rcases hsame s hs with hsame | ⟨older, holder, -⟩
    · exact Or.inl hsame
    · rw [hnone] at holder
      cases holder

/-- **SHOWN BEFORE THE BACKFILL.**  After every run of appends and of ingests, a view of the
    last lines shows the entries that it would show after the backfill, if the files are
    rotated and those with the last lines are within the limits of the selection. -/
theorem shown_before_backfill (tools : LineTools) (queryTools : QueryTools) (ix : SearchIndex)
    (cat : Catalogue) (files : BTreeMap (List UInt8)) (actions : List Action)
    (modified : String → Int) (minTsNanos : Option Int) (sizes sizes' : LogSource → Nat → Nat)
    (facets facets' : Bool) (runId : String) (query : LogViewQuery) (k : Nat)
    (hcut : ∀ a ∈ actions, a.NotAfter minTsNanos) (hquery : Unfiltered query) :
    let w := run (step ix tools cat) (World.start ix files) actions
    let sources := cat.sources.filter (fun s => s.runId == runId)
    let newest := sourceFilesNewestFirst tools modified w.files sources
    (∀ s ∈ sources, isUtf8 (completePart newline (fileBytes w.files s)) = true) →
      Rotated tools w.files newest →
      InReach tools w.files minTsNanos (targetLines query) k
        (newest.filter (fun file => !file.expired minTsNanos)) →
        let warm := warmed tools ix w.files modified minTsNanos sizes sources query w.st
        entriesOf queryTools facets runId query warm
          = entriesOf queryTools facets' runId query
              (ingestSourcesInPriorityBatches tools ix minTsNanos sizes' modified w.files sources
                warm) := by
  intro w sources newest hutf8 hrotated hreach warm
  have hsources : ∀ s ∈ sources, s ∈ cat.sources ∧ s.runId = runId := by
    intro s hs
    obtain ⟨hs, hrun⟩ := List.mem_filter.mp hs
    exact ⟨hs, beq_iff_eq.mp hrun⟩
  have hruns : ∀ s ∈ cat.sources, s.runId = runId → s ∈ sources := by
    intro s hs hrun
    exact List.mem_filter.mpr ⟨hs, beq_iff_eq.mpr hrun⟩
  have hnodup : (sources.map sourceKey).Nodup := chosen_keys _
  refine entriesOf_congr hquery ?_
  intro hentries
  obtain ⟨j, hj, hselected, hreached⟩ := warmup_selection hquery hentries rfl hreach
  have hwarm : Warm tools cat minTsNanos w.files sources
      (((newest.filter (fun file => !file.expired minTsNanos)).take j).map (·.source)) warm := by
    show Warm tools cat minTsNanos w.files sources _
      (warmed tools ix w.files modified minTsNanos sizes sources query w.st)
    rw [warmed, hselected]
    refine warm_warmed (fun s hs => (hsources s hs).1) ?_ ?_ ?_ ?_ ?_ hutf8
      (notAfter_refl minTsNanos) sizes
    · intro s hs
      obtain ⟨file, hfile, rfl⟩ := List.mem_map.mp hs
      exact (source_of_unexpired (List.mem_of_mem_take hfile)).1
    · exact (newestFirst_keys hnodup _).sublist (((List.take_sublist j _).map _).map _)
    · intro s hs
      obtain ⟨file, hfile, rfl⟩ := List.mem_map.mp hs
      exact (source_of_unexpired (List.mem_of_mem_take hfile)).2
    · intro s hs
      exact caught_run files actions hcut (hsources s hs).1 (hutf8 s hs)
    · exact owned_run files actions
  refine last_selected hruns hsources hnodup hutf8 hrotated rfl ?_ ?_ hwarm sizes'
  · intro file hfile
    rw [← Nat.min_eq_left hj, ← List.take_take] at hfile
    exact hreach.dense file (List.mem_of_mem_take hfile)
  · rcases hreached with hlines | hall
    · refine Or.inl ⟨lt_of_lt_of_le (lt_of_lt_of_le Nat.zero_lt_one (le_max_right _ _)) hlines, ?_⟩
      exact (le_max_left _ _).trans hlines
    · exact Or.inr hall

end Main

/-! ## The logs `app.log` and `app.1.log` -/

def olderSource : LogSource := ⟨"source:app", "app.1", "/logs/app.1.log"⟩

def rotatedCatalogue : Catalogue := ⟨[appSource, olderSource], by decide⟩

def rotatedLogs : World listIndex :=
  run (step listIndex datedLines rotatedCatalogue) (World.start listIndex ∅)
    [.append "/logs/app.1.log" oldLine, .append "/logs/app.log" newLine]

/-- A view of the last line. -/
def lastLine : LogViewQuery := ⟨⟨some 1, none, none, none, none⟩, none, true, false, false⟩

/-- The newer of the files. -/
def newerLast (path : String) : Int := if path = "/logs/app.log" then 2 else 1

def appWarmed : IngestState listIndex :=
  warmed datedLines listIndex rotatedLogs.files newerLast (some 0) (fun _ _ => 100)
    (rotatedCatalogue.sources.filter (fun s => s.runId == "source:app")) lastLine rotatedLogs.st

def appBackfilled : IngestState listIndex :=
  ingestSourcesInPriorityBatches datedLines listIndex (some 0) (fun _ _ => 100) newerLast
    rotatedLogs.files (rotatedCatalogue.sources.filter (fun s => s.runId == "source:app")) appWarmed

/-- Only `app.log` is ingested for the view. -/
theorem shown_before_backfill_app :
    (listIndex.docs appWarmed.index).length = 1 ∧ (listIndex.docs appBackfilled.index).length = 2
      ∧ entriesOf plainTools false "source:app" lastLine appWarmed
        = entriesOf plainTools true "source:app" lastLine appBackfilled :=
  ⟨by decide +kernel, by decide +kernel,
    shown_before_backfill datedLines plainTools listIndex rotatedCatalogue ∅
      [.append "/logs/app.1.log" oldLine, .append "/logs/app.log" newLine] newerLast (some 0)
      (fun _ _ => 100) (fun _ _ => 100) false true "source:app" lastLine 1 (by decide)
      ⟨rfl, rfl, by decide +kernel, (by intro stream h; cases h), by decide +kernel⟩
      (by decide +kernel) (by decide +kernel) (by decide +kernel)⟩

end DevstackWarmup
