import Devstack.Retention

/-! # Undated lines — retention and lines without a timestamp

    A line whose timestamp is missing or cannot be parsed is stored at the instant
    zero.  `is_before_retention` (`src/daemon/source_ingest.rs`) judges a file
    without timestamps by its modification time; `collect_complete_lines`
    (`src/infra/logs/index/ingest.rs`) and `evict_older_than` (`eviction.rs`)
    compare the zero with the cutoff as they compare any other instant.

    So the undated lines of a file that is not expired are kept exactly if the
    retention reaches back to the Unix epoch (`undated_kept_iff`). -/

namespace DevstackUndated

open DevstackModel DevstackLines DevstackIngest DevstackIngestExact DevstackRetention
open DevstackLogLine (LineTools extractTimestampStr parse_agrees)
open DevstackLiveTail (lineFormat plainLines)

/-- `retention_cutoff_nanos` and `age_cutoff_nanos`, at `now` nanoseconds after the epoch;
    `as i64` wraps. -/
def retentionCutoffNanos (now maxAge : Nat) : Int := ((now - maxAge : Nat) : Int).bmod (2 ^ 64)

section Eviction

variable (ix : SearchIndex)

/-- `evict_older_than`, with its cutoff. -/
def evictOlderThan (cutoffNanos : Int) (st : IngestState ix) : IngestState ix :=
  let older : PendingDoc → Bool := fun doc => decide (doc.tsNanos < cutoffNanos)
  if (ix.docs st.index).countP older = 0 then st
  else { st with index := ix.commit st.index older [] }

/-- What is not older than the cutoff stays. -/
theorem mem_evictOlderThan {cutoffNanos : Int} {st : IngestState ix} {doc : PendingDoc} :
    doc ∈ ix.docs (evictOlderThan ix cutoffNanos st).index
      ↔ doc ∈ ix.docs st.index ∧ cutoffNanos ≤ doc.tsNanos := by
  rw [evictOlderThan]
  split
  · next hnone =>
      rw [List.countP_eq_zero] at hnone
      have hkeep : doc ∈ ix.docs st.index → cutoffNanos ≤ doc.tsNanos := by
        intro hdoc
        simpa using hnone doc hdoc
      exact ⟨fun hdoc => ⟨hdoc, hkeep hdoc⟩, And.left⟩
  · rw [ix.docs_commit, List.append_nil, List.mem_filter]
    simp

end Eviction

/-- How the files of a source are ingested: by a query for its logs, or by a backfill. -/
inductive Ingestion where
  | direct
  | inBatches

variable (tools : LineTools) (ix : SearchIndex)

def Ingestion.run (minTsNanos : Option Int) (sizes : LogSource → Nat → Nat)
    (modified : String → Int) (files : BTreeMap (List UInt8)) (sources : List LogSource)
    (st : IngestState ix) : Ingestion → IngestState ix
  | .direct => ingestSourcesAfter ix (lineFormat tools) minTsNanos sizes files sources st
  | .inBatches =>
      ingestSourcesInPriorityBatches tools ix minTsNanos sizes modified files sources st

/-- The documents of the complete lines of a file behind its cursor. -/
def newDocs (s : LogSource) (bytes : List UInt8) (cursor : IngestCursor) : List PendingDoc :=
  let start := startCursor bytes.length cursor
  docsFrom (lineFormat tools) s start.nextSeq (textLines (bytes.drop start.offset))

/-- The line has no timestamp that can be parsed. -/
def Undated (doc : PendingDoc) : Prop :=
  (extractTimestampStr tools doc.raw).bind tools.timestampNanos = none

/-- The file of a source is there, and it is not judged expired. -/
def NotExpired (modified : String → Int) (files : BTreeMap (List UInt8)) (cutoffNanos : Int)
    (s : LogSource) : Prop :=
  (sourceFile tools modified files s).any (fun file => !file.isBeforeRetention cutoffNanos) = true

/-! ## Lines at the instant zero -/

section Lines

variable {tools} {ix} {s : LogSource} {doc : PendingDoc}

/-- The empty text is no timestamp; then an undated line is stored at zero. -/
theorem tsNanos_of_undated (hempty : tools.timestampNanos "" = none) {seq : Nat}
    {lines : List (List Char)} (hdoc : doc ∈ docsFrom (lineFormat tools) s seq lines)
    (h : Undated tools doc) : doc.tsNanos = 0 := by
  induction lines generalizing seq with
  | nil => exact nomatch hdoc
  | cons line lines ih =>
      rcases List.mem_cons.mp hdoc with rfl | hdoc
      · rw [Undated, lineDoc] at h
        rw [lineDoc, lineFormat]
        dsimp only at h ⊢
        rw [parse_agrees]
        dsimp only
        cases hts : extractTimestampStr tools (String.ofList (DevstackLogFmt.stripAnsiIfNeeded line)) with
        | none => rw [Option.getD_none, hempty, Option.getD_none]
        | some ts =>
            rw [hts, Option.bind_some] at h
            rw [Option.getD_some, h, Option.getD_none]
      · exact ih hdoc

/-- Both ingests read a file that is not expired. -/
theorem ingestion_sourceIndex (how : Ingestion) {cutoffNanos : Int}
    (sizes : LogSource → Nat → Nat) {modified : String → Int} {files : BTreeMap (List UInt8)}
    {sources : List LogSource} (hkeys : (sources.map sourceKey).Nodup) (st : IngestState ix)
    (hs : s ∈ sources) (hnot : NotExpired tools modified files cutoffNanos s) :
    sourceIndex ix (how.run tools ix (some cutoffNanos) sizes modified files sources st) s
      = sourceAfter (lineFormat tools) (some cutoffNanos) s files[s.path]? (sourceIndex ix st s) := by
  cases how with
  | direct =>
      exact (ingestSourcesAfter_sourceIndex ix (lineFormat tools) (some cutoffNanos) sizes files
        hkeys st).1 s hs
  | inBatches =>
      have hspec := (@ingestSourcesInPriorityBatches_sourceIndex tools ix (some cutoffNanos) sizes
        modified files sources hkeys st).1 s hs
      refine hspec.trans (if_neg ?_)
      rw [NotExpired] at hnot
      cases hfile : sourceFile tools modified files s with
      | none =>
          rw [hfile] at hnot
          exact nomatch hnot
      | some file =>
          rw [hfile] at hnot
          simpa [SourceFile.expired] using hnot

/-- Of the new lines, the ingest keeps those that are not older than the cutoff. -/
theorem mem_ingestion (how : Ingestion) {cutoffNanos : Int} (sizes : LogSource → Nat → Nat)
    {modified : String → Int} {files : BTreeMap (List UInt8)} {sources : List LogSource}
    (hkeys : (sources.map sourceKey).Nodup) (st : IngestState ix) (hs : s ∈ sources)
    (hnot : NotExpired tools modified files cutoffNanos s)
    (hdoc : doc ∈ newDocs tools s (fileBytes files s) (storedCursor st.cursors s)) :
    doc ∈ ix.docs (how.run tools ix (some cutoffNanos) sizes modified files sources st).index
      ↔ cutoffNanos ≤ doc.tsNanos := by
  have hspec := congrArg SourceIndex.docs (ingestion_sourceIndex how sizes hkeys st hs hnot)
  obtain ⟨hrun, hservice, -⟩ := docsFrom_mem (lineFormat tools) s hdoc
  have hmem : doc ∈ ix.docs (how.run tools ix (some cutoffNanos) sizes modified files sources st).index
      ↔ doc ∈ (sourceAfter (lineFormat tools) (some cutoffNanos) s files[s.path]?
          (sourceIndex ix st s)).docs := by
    rw [← hspec]
    exact ⟨fun h => mem_docsOf.mpr ⟨h, hrun, hservice⟩, fun h => (mem_docsOf.mp h).1⟩
  rw [hmem]
  cases hfile : files[s.path]? with
  | none =>
      have hbytes : fileBytes files s = [] := by rw [fileBytes, hfile]; rfl
      rw [newDocs, hbytes, List.drop_nil] at hdoc
      cases hdoc
  | some bytes =>
      have hbytes : fileBytes files s = bytes := by rw [fileBytes, hfile]; rfl
      rw [hbytes] at hdoc
      have hge : (startCursor bytes.length (storedCursor st.cursors s)).nextSeq ≤ doc.seq :=
        docsFrom_ge hdoc
      have hdoc : doc ∈ docsFrom (lineFormat tools) s
          (startCursor bytes.length (storedCursor st.cursors s)).nextSeq
          (textLines (completePart newline
            (bytes.drop (startCursor bytes.length (storedCursor st.cursors s)).offset))) := by
        rw [textLines_completePart]
        exact hdoc
      rw [sourceAfter, collectedTo, if_neg ?_]
      · rw [List.mem_append, List.mem_filter, kept, List.mem_filter]
        have hkeeps : keeps (some cutoffNanos) doc = true ↔ cutoffNanos ≤ doc.tsNanos := by
          simp [keeps]
        rw [hkeeps]
        constructor
        · rintro (⟨-, hlt⟩ | ⟨-, hle⟩)
          · exact absurd hge (Nat.not_le.mpr (of_decide_eq_true hlt))
          · exact hle
        · intro hle
          exact .inr ⟨hdoc, hle⟩
      · intro hnone
        have hnone : completePart newline (bytes.drop
            (startCursor bytes.length (storedCursor st.cursors s)).offset) = [] := hnone
        rw [hnone] at hdoc
        cases hdoc

end Lines

/-- For every file that is not judged expired, neither when it is ingested nor when the
    index is cleared of old documents: its new undated lines are indexed and stay exactly
    if there are none or both cutoffs are at the epoch. -/
theorem undated_kept_iff (hempty : tools.timestampNanos "" = none) (how : Ingestion)
    (sizes : LogSource → Nat → Nat) {sources : List LogSource}
    (hkeys : (sources.map sourceKey).Nodup) (st : IngestState ix) {s : LogSource}
    (hs : s ∈ sources) (now now' maxAge : Nat) {modified modified' : String → Int}
    {files files' : BTreeMap (List UInt8)}
    (hnot : NotExpired tools modified files (retentionCutoffNanos now maxAge) s)
    (_hstill : NotExpired tools modified' files' (retentionCutoffNanos now' maxAge) s) :
    (∀ doc ∈ newDocs tools s (fileBytes files s) (storedCursor st.cursors s), Undated tools doc →
        doc ∈ ix.docs (how.run tools ix (some (retentionCutoffNanos now maxAge)) sizes modified
            files sources st).index
          ∧ ∀ later : IngestState ix, doc ∈ ix.docs later.index →
              doc ∈ ix.docs (evictOlderThan ix (retentionCutoffNanos now' maxAge) later).index)
      ↔ (∀ doc ∈ newDocs tools s (fileBytes files s) (storedCursor st.cursors s),
            ¬ Undated tools doc)
          ∨ (retentionCutoffNanos now maxAge ≤ 0 ∧ retentionCutoffNanos now' maxAge ≤ 0) := by
  have hone : ∀ doc ∈ newDocs tools s (fileBytes files s) (storedCursor st.cursors s),
      Undated tools doc →
        ((doc ∈ ix.docs (how.run tools ix (some (retentionCutoffNanos now maxAge)) sizes modified
              files sources st).index
            ∧ ∀ later : IngestState ix, doc ∈ ix.docs later.index →
                doc ∈ ix.docs (evictOlderThan ix (retentionCutoffNanos now' maxAge) later).index)
          ↔ (retentionCutoffNanos now maxAge ≤ 0 ∧ retentionCutoffNanos now' maxAge ≤ 0)) := by
    intro doc hdoc hundated
    have hzero := tsNanos_of_undated hempty hdoc hundated
    rw [mem_ingestion how sizes hkeys st hs hnot hdoc, hzero]
    refine and_congr_right ?_
    intro hcutoff
    have hin := (mem_ingestion how sizes hkeys st hs hnot hdoc).mpr (hzero ▸ hcutoff)
    constructor
    · intro hstays
      have hevicted := ((mem_evictOlderThan ix).mp (hstays _ hin)).2
      rw [hzero] at hevicted
      exact hevicted
    · intro hcutoff' later hlater
      exact (mem_evictOlderThan ix).mpr ⟨hlater, hzero ▸ hcutoff'⟩
  constructor
  · intro hall
    by_cases hsome : ∀ doc ∈ newDocs tools s (fileBytes files s) (storedCursor st.cursors s),
        ¬ Undated tools doc
    · exact .inl hsome
    · push Not at hsome
      obtain ⟨doc, hdoc, hundated⟩ := hsome
      exact .inr ((hone doc hdoc hundated).mp (hall doc hdoc hundated))
  · rintro (hnone | hcutoffs) doc hdoc hundated
    · exact absurd hundated (hnone doc hdoc)
    · exact (hone doc hdoc hundated).mpr hcutoffs

/-! ## A file with the line `a` -/

def appFiles : BTreeMap (List UInt8) := (∅ : BTreeMap (List UInt8)).insert "/logs/app.log" [0x61, 0x0A]

/-- The year 2025, and one hour. -/
def year2025 : Nat := 1735689600000000000

def oneHour : Nat := 3600000000000

/-- Its one line, which has no timestamp. -/
def appLine : PendingDoc := ⟨"source:app", "app", "stdout", "info", 0, "", 0, "a", "a", []⟩

theorem appLine_new : appLine ∈ newDocs plainLines appSource (fileBytes appFiles appSource)
    (storedCursor (∅ : BTreeMap IngestCursor) appSource) := by
  decide +kernel

theorem appLine_undated : Undated plainLines appLine := by
  rw [Undated]
  decide +kernel

/-- With a retention of a hundred years the line is indexed and stays. -/
theorem undated_kept_app :
    appLine ∈ listIndex.docs (Ingestion.inBatches.run plainLines listIndex
        (some (retentionCutoffNanos year2025 (876000 * oneHour))) (fun _ _ => 100)
        (fun _ => year2025) appFiles [appSource] ⟨listIndex.empty, ∅⟩).index
      ∧ ∀ later : IngestState listIndex, appLine ∈ listIndex.docs later.index →
          appLine ∈ listIndex.docs (evictOlderThan listIndex
            (retentionCutoffNanos (year2025 + oneHour) (876000 * oneHour)) later).index := by
  have hkeys : ([appSource].map sourceKey).Nodup := by decide
  have hnot : NotExpired plainLines (fun _ => year2025) appFiles
      (retentionCutoffNanos year2025 (876000 * oneHour)) appSource := by
    rw [NotExpired]
    decide +kernel
  have hstill : NotExpired plainLines (fun _ => year2025) appFiles
      (retentionCutoffNanos (year2025 + oneHour) (876000 * oneHour)) appSource := by
    rw [NotExpired]
    decide +kernel
  exact (undated_kept_iff plainLines listIndex rfl .inBatches (fun _ _ => 100) hkeys
    ⟨listIndex.empty, ∅⟩ List.mem_cons_self year2025 (year2025 + oneHour) (876000 * oneHour)
    hnot hstill).mpr (.inr ⟨by decide, by decide⟩) appLine appLine_new appLine_undated

/-- With a retention of one hour, the line of a file that was written just now is not
    indexed. -/
theorem undated_line_dropped :
    NotExpired plainLines (fun _ => year2025) appFiles (retentionCutoffNanos year2025 oneHour)
        appSource
      ∧ appLine ∈ newDocs plainLines appSource (fileBytes appFiles appSource)
          (storedCursor (∅ : BTreeMap IngestCursor) appSource)
      ∧ Undated plainLines appLine
      ∧ appLine ∉ listIndex.docs (Ingestion.direct.run plainLines listIndex
          (some (retentionCutoffNanos year2025 oneHour)) (fun _ _ => 100)
          (fun _ => year2025) appFiles [appSource] ⟨listIndex.empty, ∅⟩).index := by
  refine ⟨by rw [NotExpired]; decide +kernel, appLine_new, appLine_undated, ?_⟩
  decide +kernel

end DevstackUndated
