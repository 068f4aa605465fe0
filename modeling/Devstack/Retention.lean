import Devstack.Following
import Devstack.LiveTail
import Devstack.SourceNames

/-! # Retention — expired files are skipped

    `ingest_sources_in_priority_batches` (`src/daemon/source_ingest.rs`) takes the
    files of a source newest first and in batches.  A file that `is_before_retention`
    judges expired is not read: `mark_sources_current` moves its cursor to its end.
    `ingest_sources_after` drops the expired lines of a file one by one.

    `Worlds` keeps both indexes over the same files.  They have the same lines along
    every run in which a file is skipped only where the plain ingest would read
    finished, expired lines to its end (`skipping_agrees_along`).  The judgement
    looks at the last timestamp of a file only: a file whose last line is older
    than the one before it is skipped with both (`last_line_older`). -/

namespace DevstackRetention

open DevstackModel DevstackMachine DevstackLines DevstackLossyUtf8 DevstackIngest DevstackCursor
open DevstackIngestExact hiding Action step ingested World
open DevstackLogLine (LineTools extractTimestampStr)
open DevstackLiveTail (lineFormat plainLines)
open DevstackSourceNames (pathLe)

-- ── source_ingest.rs ──────────────────────────────────────────────────────────

def sourceTimestampSampleBytes : Nat := 1024 * 1024

def sourceBackfillBatchMaxBytes : Nat := 16 * 1024 * 1024

def sourceBackfillBatchMaxFiles : Nat := 8

structure SourceFile where
  source : LogSource
  modifiedNanos : Int
  len : Nat
  lastTsNanos : Option Int

variable (tools : LineTools)

def readSuffix (bytes : List UInt8) (maxBytes : Nat) : List UInt8 :=
  bytes.drop (bytes.length - maxBytes)

def timestampFromLines (lines : List (List UInt8)) : Option Int :=
  lines.findSome? (fun line =>
    if line.isEmpty then none
    else (extractTimestampStr tools (String.ofList (chars (scan line)))).bind tools.timestampNanos)

def lastTimestampNanos (bytes : List UInt8) : Option Int :=
  let suffix := readSuffix bytes sourceTimestampSampleBytes
  timestampFromLines tools (finished newline suffix ++ [rest newline suffix]).reverse

/-- `source_file`; `modified` has the modification times, in nanoseconds. -/
def sourceFile (modified : String → Int) (files : BTreeMap (List UInt8)) (source : LogSource) :
    Option SourceFile :=
  files[source.path]?.map (fun bytes =>
    { source := source
      modifiedNanos := modified source.path
      len := bytes.length
      lastTsNanos := lastTimestampNanos tools bytes })

def SourceFile.isBeforeRetention (file : SourceFile) (cutoffNanos : Int) : Bool :=
  if file.len = 0 then true
  else
    match file.lastTsNanos with
    | some lastTsNanos => decide (lastTsNanos < cutoffNanos)
    | none => decide (0 < file.modifiedNanos) && decide (file.modifiedNanos < cutoffNanos)

/-- The order of `source_files_newest_first`. -/
def newestFirst (left right : SourceFile) : Prop :=
  right.modifiedNanos < left.modifiedNanos
    ∨ (right.modifiedNanos = left.modifiedNanos ∧ pathLe left.source.path right.source.path)

instance : DecidableRel newestFirst := fun _ _ => inferInstanceAs (Decidable (_ ∨ _))

def sourceFilesNewestFirst (modified : String → Int) (files : BTreeMap (List UInt8))
    (sources : List LogSource) : List SourceFile :=
  (sources.filterMap (sourceFile tools modified files)).insertionSort newestFirst

/-- The file is judged expired. -/
def SourceFile.expired (minTsNanos : Option Int) (file : SourceFile) : Bool :=
  minTsNanos.any file.isBeforeRetention

/-- The variables of the loop of `priority_source_batches`. -/
structure BatchLoop where
  batches : List (List LogSource)
  skipped : List LogSource
  current : List LogSource
  currentBytes : Nat

def batchStep (minTsNanos : Option Int) (loop : BatchLoop) (file : SourceFile) : BatchLoop :=
  if file.expired minTsNanos then { loop with skipped := loop.skipped ++ [file.source] }
  else
    let wouldExceedBytes := decide (0 < loop.currentBytes)
      && decide (sourceBackfillBatchMaxBytes < loop.currentBytes + file.len)
    let wouldExceedFiles := decide (sourceBackfillBatchMaxFiles ≤ loop.current.length)
    let loop :=
      if !loop.current.isEmpty && (wouldExceedBytes || wouldExceedFiles) then
        { loop with batches := loop.batches ++ [loop.current], current := [], currentBytes := 0 }
      else loop
    { loop with
      current := loop.current ++ [file.source]
      currentBytes := loop.currentBytes + file.len }

/-- The batches, and what is skipped. -/
def prioritySourceBatches (files : List SourceFile) (minTsNanos : Option Int) :
    List (List LogSource) × List LogSource :=
  let loop := files.foldl (batchStep minTsNanos) ⟨[], [], [], 0⟩
  (if loop.current.isEmpty then loop.batches else loop.batches ++ [loop.current], loop.skipped)

-- ── ingest.rs ─────────────────────────────────────────────────────────────────

/-- What `mark_sources_current` makes of the cursor of a file of `len` bytes. -/
def markCurrent (len : Nat) (cursor : IngestCursor) : IngestCursor where
  offset := len
  nextSeq := if len < cursor.offset then 0 else cursor.nextSeq

variable {ix : SearchIndex}

def markSource (files : BTreeMap (List UInt8)) (cursors : BTreeMap IngestCursor)
    (source : LogSource) : BTreeMap IngestCursor :=
  match files[source.path]? with
  | none => cursors
  | some bytes =>
      cursors.insert (sourceKey source) (markCurrent bytes.length (storedCursor cursors source))

def markSourcesCurrent (files : BTreeMap (List UInt8)) (sources : List LogSource)
    (st : IngestState ix) : IngestState ix :=
  { st with cursors := sources.foldl (markSource files) st.cursors }

variable (ix)

def ingestSourcesInPriorityBatches (minTsNanos : Option Int) (sizes : LogSource → Nat → Nat)
    (modified : String → Int) (files : BTreeMap (List UInt8)) (sources : List LogSource)
    (st : IngestState ix) : IngestState ix :=
  let (batches, skipped) :=
    prioritySourceBatches (sourceFilesNewestFirst tools modified files sources) minTsNanos
  let st := if skipped.isEmpty then st else markSourcesCurrent files skipped st
  batches.foldl
    (fun st batch => ingestSourcesAfter ix (lineFormat tools) minTsNanos sizes files batch st) st

-- ── runs ──────────────────────────────────────────────────────────────────────

/-- The same files, indexed with skipping and without. -/
structure Worlds where
  files : BTreeMap (List UInt8)
  skipping : IngestState ix
  plain : IngestState ix

def Worlds.start (files : BTreeMap (List UInt8)) : Worlds ix :=
  ⟨files, ⟨ix.empty, ∅⟩, ⟨ix.empty, ∅⟩⟩

inductive Action where
  /-- A file is appended to, truncated, replaced or removed. -/
  | write (path : String) (file : Option (List UInt8))
  /-- `ingest_sources_after`. -/
  | ingest (minTsNanos : Option Int) (chosen : LogSource → Bool) (sizes : LogSource → Nat → Nat)
  /-- `ingest_sources_in_priority_batches`; the plain index ingests the same sources. -/
  | prioritized (minTsNanos : Option Int) (chosen : LogSource → Bool)
      (sizes : LogSource → Nat → Nat) (modified : String → Int)

def written (files : BTreeMap (List UInt8)) (path : String) : Option (List UInt8) →
    BTreeMap (List UInt8)
  | none => files.erase path
  | some bytes => files.insert path bytes

variable (cat : Catalogue)

def step (w : Worlds ix) : Action → Worlds ix
  | .write path file => { w with files := written w.files path file }
  | .ingest minTsNanos chosen sizes =>
      let ingested := ingestSourcesAfter ix (lineFormat tools) minTsNanos sizes w.files
        (cat.sources.filter chosen)
      { w with skipping := ingested w.skipping, plain := ingested w.plain }
  | .prioritized minTsNanos chosen sizes modified =>
      { w with
        skipping := ingestSourcesInPriorityBatches tools ix minTsNanos sizes modified w.files
          (cat.sources.filter chosen) w.skipping
        plain := ingestSourcesAfter ix (lineFormat tools) minTsNanos sizes w.files
          (cat.sources.filter chosen) w.plain }

variable {ix}

/-- A document without its number: skipped lines are not numbered. -/
def unnumbered (doc : PendingDoc) : PendingDoc := { doc with seq := 0 }

/-- Both indexes have the same documents of a source, numbered in the same order. -/
structure SameLines (w : Worlds ix) (s : LogSource) : Prop where
  docs : (docsOf (ix.docs w.skipping.index) s).map unnumbered
    = (docsOf (ix.docs w.plain.index) s).map unnumbered
  skipping : Ascending PendingDoc.seq (docsOf (ix.docs w.skipping.index) s)
  plain : Ascending PendingDoc.seq (docsOf (ix.docs w.plain.index) s)

/-- What a plain ingest would read of a file that is skipped: nothing, or finished lines
    to the end of the file, all of them expired; and it would delete nothing. -/
def ExpiredLines (minTsNanos : Option Int) (s : LogSource) (bytes : List UInt8)
    (indexed : SourceIndex) : Prop :=
  let start := startCursor bytes.length indexed.cursor
  let new := bytes.drop start.offset
  bytes = [] ∨ (openPart newline new = [] ∧ ThreeByteBroken new
    ∧ (∀ doc ∈ docsFrom (lineFormat tools) s start.nextSeq (textLines new),
        keeps minTsNanos doc = false)
    ∧ ∀ doc ∈ indexed.docs, doc.seq < start.nextSeq)

/-- A file is skipped only with expired lines; and one that was empty when it was marked
    current stays shorter than what the plain ingest had read of it. -/
def SkipsExpired (w : Worlds ix) : Action → Prop
  | .write path file => ∀ s ∈ cat.sources, s.path = path →
      (storedCursor w.skipping.cursors s).offset ≠ (storedCursor w.plain.cursors s).offset →
        (file.getD []).length < (storedCursor w.plain.cursors s).offset
  | .ingest _ _ _ => True
  | .prioritized minTsNanos chosen _ modified => ∀ s ∈ cat.sources.filter chosen,
      (sourceFile tools modified w.files s).any (SourceFile.expired minTsNanos) = true →
        ExpiredLines tools minTsNanos s (fileBytes w.files s) (sourceIndex ix w.skipping s)

instance (minTsNanos : Option Int) (s : LogSource) (bytes : List UInt8) (indexed : SourceIndex) :
    Decidable (ExpiredLines tools minTsNanos s bytes indexed) :=
  inferInstanceAs (Decidable (_ ∨ (_ ∧ _ ∧ _ ∧ _)))

instance (w : Worlds ix) : ∀ a : Action, Decidable (SkipsExpired tools cat w a)
  | .write _ _ => inferInstanceAs (Decidable (∀ s ∈ _, _))
  | .ingest _ _ _ => inferInstanceAs (Decidable True)
  | .prioritized _ _ _ _ => inferInstanceAs (Decidable (∀ s ∈ _, _))

/-! ## What is skipped, and what is ingested in which batch -/

section Batches

variable {tools}

/-- A file is skipped or goes into the batch behind the others. -/
theorem batchStep_file (minTsNanos : Option Int) (loop : BatchLoop) (file : SourceFile) :
    let after := batchStep minTsNanos loop file
    after.batches.flatten ++ after.current
        = loop.batches.flatten ++ loop.current
          ++ (if file.expired minTsNanos then [] else [file.source])
      ∧ after.skipped = loop.skipped ++ (if file.expired minTsNanos then [file.source] else []) := by
  intro after
  by_cases hexpired : file.expired minTsNanos = true
  · have hafter : after = _ := if_pos hexpired
    simp [hafter, hexpired]
  · have hafter : after = _ := if_neg hexpired
    rw [hafter]
    dsimp only
    rw [if_neg hexpired]
    split <;> simp

/-- The loop over the files keeps their order. -/
theorem batchStep_files (minTsNanos : Option Int) (files : List SourceFile) :
    ∀ loop : BatchLoop,
      let after := files.foldl (batchStep minTsNanos) loop
      after.batches.flatten ++ after.current
          = loop.batches.flatten ++ loop.current
            ++ (files.filter (fun file => !file.expired minTsNanos)).map (·.source)
        ∧ after.skipped
          = loop.skipped ++ (files.filter (SourceFile.expired minTsNanos)).map (·.source) := by
  induction files with
  | nil => exact fun loop => ⟨by simp, by simp⟩
  | cons file files ih =>
      intro loop after
      obtain ⟨hbatches, hskipped⟩ := ih (batchStep minTsNanos loop file)
      obtain ⟨hbatch, hskip⟩ := batchStep_file minTsNanos loop file
      rw [hbatch] at hbatches
      rw [hskip] at hskipped
      refine ⟨hbatches.trans ?_, hskipped.trans ?_⟩
      · by_cases hexpired : file.expired minTsNanos = true <;> simp [hexpired]
      · by_cases hexpired : file.expired minTsNanos = true <;> simp [hexpired]

theorem prioritySourceBatches_files (minTsNanos : Option Int) (files : List SourceFile) :
    (prioritySourceBatches files minTsNanos).1.flatten
        = (files.filter (fun file => !file.expired minTsNanos)).map (·.source)
      ∧ (prioritySourceBatches files minTsNanos).2
        = (files.filter (SourceFile.expired minTsNanos)).map (·.source) := by
  obtain ⟨hbatches, hskipped⟩ := batchStep_files minTsNanos files ⟨[], [], [], 0⟩
  refine ⟨?_, hskipped⟩
  rw [prioritySourceBatches]
  dsimp only
  rw [List.flatten_nil, List.nil_append, List.nil_append] at hbatches
  rw [← hbatches]
  split
  · next hempty => rw [List.isEmpty_iff.mp hempty, List.append_nil]
  · rw [List.flatten_append, List.flatten_singleton]

theorem sourceFile_source {modified : String → Int} {files : BTreeMap (List UInt8)}
    {s : LogSource} {file : SourceFile} (h : sourceFile tools modified files s = some file) :
    file.source = s := by
  obtain ⟨bytes, -, rfl⟩ := Option.map_eq_some_iff.mp h
  rfl

/-- The sources of the files are the sources that have a file. -/
theorem map_source_filterMap (modified : String → Int) (files : BTreeMap (List UInt8))
    (sources : List LogSource) :
    (sources.filterMap (sourceFile tools modified files)).map (·.source)
      = sources.filter (fun s => (sourceFile tools modified files s).isSome) := by
  induction sources with
  | nil => rfl
  | cons s sources ih =>
      cases hfile : sourceFile tools modified files s with
      | none => rw [List.filterMap_cons_none hfile, ih, List.filter_cons_of_neg (by simp [hfile])]
      | some file =>
          rw [List.filterMap_cons_some hfile, List.map_cons, ih, sourceFile_source hfile,
            List.filter_cons_of_pos (by simp [hfile])]

theorem mem_newestFirst {modified : String → Int} {files : BTreeMap (List UInt8)}
    {sources : List LogSource} {p : SourceFile → Bool} {s : LogSource} :
    s ∈ ((sourceFilesNewestFirst tools modified files sources).filter p).map (·.source)
      ↔ s ∈ sources ∧ (sourceFile tools modified files s).any p = true := by
  rw [List.mem_map]
  constructor
  · rintro ⟨file, hmem, rfl⟩
    obtain ⟨hmem, hp⟩ := List.mem_filter.mp hmem
    obtain ⟨s, hs, hfile⟩ := List.mem_filterMap.mp ((List.mem_insertionSort newestFirst).mp hmem)
    rw [sourceFile_source hfile, hfile]
    exact ⟨hs, hp⟩
  · rintro ⟨hs, hany⟩
    cases hfile : sourceFile tools modified files s with
    | none =>
        rw [hfile] at hany
        exact nomatch hany
    | some file =>
        rw [hfile] at hany
        have hmem := List.mem_filterMap.mpr ⟨s, hs, hfile⟩
        exact ⟨file, List.mem_filter.mpr ⟨(List.mem_insertionSort newestFirst).mpr hmem, hany⟩,
          sourceFile_source hfile⟩

theorem newestFirst_keys {modified : String → Int} {files : BTreeMap (List UInt8)}
    {sources : List LogSource} (hnodup : (sources.map sourceKey).Nodup) (p : SourceFile → Bool) :
    ((((sourceFilesNewestFirst tools modified files sources).filter p).map (·.source)).map
      sourceKey).Nodup := by
  have hperm : ((sourceFilesNewestFirst tools modified files sources).map (·.source)).Perm
      (sources.filter (fun s => (sourceFile tools modified files s).isSome)) := by
    rw [← map_source_filterMap]
    exact (List.perm_insertionSort newestFirst _).map _
  have hall := (hperm.map sourceKey).nodup_iff.mpr
    (hnodup.sublist (List.filter_sublist.map sourceKey))
  exact hall.sublist ((List.filter_sublist.map _).map _)

end Batches

/-! ## Source by source -/

section Sources

variable {tools}

/-- What a skipped source is left with. -/
def skippedAt (len : Nat) (before : SourceIndex) : SourceIndex :=
  ⟨before.docs, markCurrent len before.cursor⟩

def skippedAfter (file : Option (List UInt8)) (before : SourceIndex) : SourceIndex :=
  match file with
  | none => before
  | some bytes => skippedAt bytes.length before

theorem markSource_self (files : BTreeMap (List UInt8)) (cursors : BTreeMap IngestCursor)
    (s : LogSource) :
    storedCursor (markSource files cursors s) s
      = match files[s.path]? with
        | none => storedCursor cursors s
        | some bytes => markCurrent bytes.length (storedCursor cursors s) := by
  rw [markSource]
  cases files[s.path]? with
  | none => rfl
  | some bytes => simp [storedCursor]

theorem markSource_other (files : BTreeMap (List UInt8)) (cursors : BTreeMap IngestCursor)
    {s t : LogSource} (hne : sourceKey s ≠ sourceKey t) :
    storedCursor (markSource files cursors s) t = storedCursor cursors t := by
  rw [markSource]
  cases files[s.path]? with
  | none => rfl
  | some bytes => simp [storedCursor, Std.ExtTreeMap.getElem?_insert, hne]

theorem foldl_markSource (files : BTreeMap (List UInt8)) (sources : List LogSource)
    (hnodup : (sources.map sourceKey).Nodup) :
    ∀ cursors : BTreeMap IngestCursor,
      let after := sources.foldl (markSource files) cursors
      (∀ s ∈ sources, storedCursor after s = storedCursor (markSource files cursors s) s)
        ∧ ∀ s : LogSource, sourceKey s ∉ sources.map sourceKey →
            storedCursor after s = storedCursor cursors s := by
  induction sources with
  | nil => exact fun _ => ⟨fun _ hs => (nomatch hs), fun _ _ => rfl⟩
  | cons t sources ih =>
      intro cursors after
      obtain ⟨ht, hnodup⟩ := List.nodup_cons.mp hnodup
      obtain ⟨hmarked, hothers⟩ := ih hnodup (markSource files cursors t)
      refine ⟨fun s hs => ?_, fun s hs => ?_⟩
      · rcases List.mem_cons.mp hs with rfl | hs
        · exact hothers s ht
        · have hne : sourceKey t ≠ sourceKey s := fun he => ht (he ▸ List.mem_map_of_mem hs)
          refine (hmarked s hs).trans ?_
          rw [markSource_self, markSource_self, markSource_other files cursors hne]
      · rw [List.map_cons, List.mem_cons, not_or] at hs
        exact (hothers s hs.2).trans (markSource_other files cursors (fun he => hs.1 he.symm))

/-- Marking adds the cursors of its sources only. -/
theorem mem_foldl_markSource {files : BTreeMap (List UInt8)} {sources : List LogSource}
    {cursors : BTreeMap IngestCursor} {key : String}
    (h : key ∈ sources.foldl (markSource files) cursors) :
    key ∈ cursors ∨ ∃ s ∈ sources, sourceKey s = key := by
  induction sources generalizing cursors with
  | nil => exact Or.inl h
  | cons s sources ih =>
      rcases ih h with h | ⟨t, ht, hkey⟩
      · rw [markSource] at h
        split at h
        · exact Or.inl h
        · rcases Std.ExtTreeMap.mem_insert.mp h with hkey | h
          · exact Or.inr ⟨s, List.mem_cons_self, Std.LawfulEqCmp.compare_eq_iff_eq.mp hkey⟩
          · exact Or.inl h
      · exact Or.inr ⟨t, List.mem_cons_of_mem s ht, hkey⟩

/-- **WHAT MARKING DOES**: the cursors of its sources go to the ends of their files. -/
theorem markSourcesCurrent_sourceIndex (files : BTreeMap (List UInt8)) {sources : List LogSource}
    (hnodup : (sources.map sourceKey).Nodup) (st : IngestState ix) :
    (∀ s ∈ sources, sourceIndex ix (markSourcesCurrent files sources st) s
        = skippedAfter files[s.path]? (sourceIndex ix st s))
      ∧ ∀ s : LogSource, sourceKey s ∉ sources.map sourceKey →
          sourceIndex ix (markSourcesCurrent files sources st) s = sourceIndex ix st s := by
  obtain ⟨hmarked, hothers⟩ := foldl_markSource files sources hnodup st.cursors
  refine ⟨fun s hs => ?_, fun s hs => ?_⟩
  · rw [sourceIndex, markSourcesCurrent, hmarked s hs, markSource_self]
    cases files[s.path]? <;> rfl
  · rw [sourceIndex, markSourcesCurrent, hothers s hs]
    rfl

/-- Batch after batch is what one ingest of all would do. -/
theorem foldl_batches_sourceIndex (ix : SearchIndex) (fmt : LineFormat) (minTsNanos : Option Int)
    (sizes : LogSource → Nat → Nat) (files : BTreeMap (List UInt8)) (batches : List (List LogSource))
    (hnodup : (batches.flatten.map sourceKey).Nodup) :
    ∀ st : IngestState ix,
      let after := batches.foldl
        (fun st batch => ingestSourcesAfter ix fmt minTsNanos sizes files batch st) st
      (∀ s ∈ batches.flatten, sourceIndex ix after s
          = sourceAfter fmt minTsNanos s files[s.path]? (sourceIndex ix st s))
        ∧ ∀ s : LogSource, sourceKey s ∉ batches.flatten.map sourceKey →
            sourceIndex ix after s = sourceIndex ix st s := by
  induction batches with
  | nil => exact fun _ => ⟨fun _ hs => (nomatch hs), fun _ _ => rfl⟩
  | cons batch batches ih =>
      intro st after
      rw [List.flatten_cons, List.map_append] at hnodup
      obtain ⟨hbatch, hrest, hdisjoint⟩ := List.nodup_append'.mp hnodup
      obtain ⟨hown, helse⟩ := ingestSourcesAfter_sourceIndex ix fmt minTsNanos sizes files hbatch st
      obtain ⟨hlater, hothers⟩ := ih hrest (ingestSourcesAfter ix fmt minTsNanos sizes files batch st)
      refine ⟨fun s hs => ?_, fun s hs => ?_⟩
      · rw [List.flatten_cons, List.mem_append] at hs
        rcases hs with hs | hs
        · exact (hothers s (hdisjoint (List.mem_map_of_mem hs))).trans (hown s hs)
        · have hnot : sourceKey s ∉ batch.map sourceKey := fun hmem =>
            hdisjoint hmem (List.mem_map_of_mem hs)
          rw [← helse s hnot]
          exact hlater s hs
      · rw [List.flatten_cons, List.map_append, List.mem_append, not_or] at hs
        exact (hothers s hs.2).trans (helse s hs.1)

/-- Sources with other keys than `s` have other files. -/
theorem key_not_mem_newestFirst {modified : String → Int} {files : BTreeMap (List UInt8)}
    {sources : List LogSource} (hnodup : (sources.map sourceKey).Nodup) {p : SourceFile → Bool}
    {s : LogSource} (hs : s ∈ sources) (hnot : (sourceFile tools modified files s).any p = false) :
    sourceKey s
      ∉ (((sourceFilesNewestFirst tools modified files sources).filter p).map (·.source)).map
        sourceKey := by
  intro hmem
  obtain ⟨t, ht, he⟩ := List.mem_map.mp hmem
  obtain ⟨htmem, hany⟩ := mem_newestFirst.mp ht
  rw [List.inj_on_of_nodup_map hnodup htmem hs he, hnot] at hany
  exact nomatch hany

/-- **WHAT AN INGEST IN PRIORITY BATCHES DOES**: what is judged expired is marked current,
    the rest is ingested. -/
theorem ingestSourcesInPriorityBatches_sourceIndex (ix : SearchIndex) (minTsNanos : Option Int)
    (sizes : LogSource → Nat → Nat) (modified : String → Int) (files : BTreeMap (List UInt8))
    {sources : List LogSource} (hnodup : (sources.map sourceKey).Nodup) (st : IngestState ix) :
    let after := ingestSourcesInPriorityBatches tools ix minTsNanos sizes modified files sources st
    (∀ s ∈ sources, sourceIndex ix after s
        = if (sourceFile tools modified files s).any (SourceFile.expired minTsNanos) = true then
            skippedAfter files[s.path]? (sourceIndex ix st s)
          else
            sourceAfter (lineFormat tools) minTsNanos s files[s.path]? (sourceIndex ix st s))
      ∧ ∀ s : LogSource, sourceKey s ∉ sources.map sourceKey →
          sourceIndex ix after s = sourceIndex ix st s := by
  intro after
  obtain ⟨hbatches, hskipped⟩ := prioritySourceBatches_files minTsNanos
    (sourceFilesNewestFirst tools modified files sources)
  have hafter : after = (prioritySourceBatches
        (sourceFilesNewestFirst tools modified files sources) minTsNanos).1.foldl
      (fun st batch => ingestSourcesAfter ix (lineFormat tools) minTsNanos sizes files batch st)
      (markSourcesCurrent files (prioritySourceBatches
        (sourceFilesNewestFirst tools modified files sources) minTsNanos).2 st) := by
    rw [show after = ingestSourcesInPriorityBatches tools ix minTsNanos sizes modified files sources
      st from rfl, ingestSourcesInPriorityBatches]
    dsimp only
    split
    · next hempty => rw [List.isEmpty_iff.mp hempty]; rfl
    · rfl
  rw [hafter, hskipped]
  obtain ⟨hmark, hunmarked⟩ := markSourcesCurrent_sourceIndex files
    (newestFirst_keys hnodup (SourceFile.expired minTsNanos)) st
  obtain ⟨hingest, hnone⟩ := foldl_batches_sourceIndex ix (lineFormat tools) minTsNanos sizes files _
    (hbatches ▸ newestFirst_keys hnodup (fun file => !file.expired minTsNanos))
    (markSourcesCurrent files (((sourceFilesNewestFirst tools modified files sources).filter
      (SourceFile.expired minTsNanos)).map (·.source)) st)
  rw [hbatches] at hingest hnone
  refine ⟨fun s hs => ?_, fun s hs => ?_⟩
  · by_cases hexpired :
      (sourceFile tools modified files s).any (SourceFile.expired minTsNanos) = true
    · have hnot : (sourceFile tools modified files s).any (fun file => !file.expired minTsNanos)
          = false := by
        cases hfile : sourceFile tools modified files s with
        | none => rfl
        | some file =>
            rw [hfile] at hexpired
            simpa using hexpired
      rw [if_pos hexpired, hnone s (key_not_mem_newestFirst hnodup hs hnot)]
      exact hmark s (mem_newestFirst.mpr ⟨hs, hexpired⟩)
    · have hkept := hunmarked s
        (key_not_mem_newestFirst hnodup hs (Bool.eq_false_iff.mpr hexpired))
      rw [if_neg hexpired, ← hkept]
      cases hfile : sourceFile tools modified files s with
      | none =>
          -- no file, so nothing to read
          rw [hnone s (key_not_mem_newestFirst hnodup hs (by rw [hfile]; rfl)),
            Option.map_eq_none_iff.mp hfile]
          rfl
      | some file =>
          refine hingest s (mem_newestFirst.mpr ⟨hs, ?_⟩)
          rw [hfile] at hexpired ⊢
          simpa using hexpired
  · have hfiles : ∀ p : SourceFile → Bool, sourceKey s
        ∉ (((sourceFilesNewestFirst tools modified files sources).filter p).map (·.source)).map
          sourceKey := by
      intro p hmem
      obtain ⟨t, ht, he⟩ := List.mem_map.mp hmem
      exact hs (he ▸ List.mem_map_of_mem (mem_newestFirst.mp ht).1)
    rw [hnone s (hfiles _), hunmarked s (hfiles _)]

end Sources

/-! ## One source in both indexes -/

section Agreement

variable {tools} {fmt : LineFormat} {s : LogSource} {minTsNanos : Option Int}
variable {len : Nat} {a b : SourceIndex}

/-- The numbers of the documents are used up. -/
def Numbered (index : SourceIndex) : Prop := ∀ doc ∈ index.docs, doc.seq < index.cursor.nextSeq

/-- What the skipping index (`a`) and the plain one (`b`) have of a source whose file has `len`
    bytes.  Both will read on from the same place: from where both stopped, or from the
    start, because the one was marked current when the file was empty and the other stopped
    behind its end. -/
structure Agree (len : Nat) (a b : SourceIndex) : Prop where
  docs : a.docs.map unnumbered = b.docs.map unnumbered
  skipping : Ascending PendingDoc.seq a.docs
  plain : Ascending PendingDoc.seq b.docs
  cursors : (a.cursor.offset = b.cursor.offset ∧ Numbered a ∧ Numbered b)
    ∨ (a.cursor = ⟨0, 0⟩ ∧ len < b.cursor.offset)

/-- What an ingest that reads from `start` does not delete. -/
def below (start : IngestCursor) (index : SourceIndex) : List PendingDoc :=
  index.docs.filter (fun doc => decide (doc.seq < start.nextSeq))

theorem below_all {start : IngestCursor} {index : SourceIndex}
    (h : ∀ doc ∈ index.docs, doc.seq < start.nextSeq) : below start index = index.docs :=
  List.filter_eq_self.mpr fun doc hdoc => decide_eq_true (h doc hdoc)

theorem below_zero (index : SourceIndex) : below ⟨0, 0⟩ index = [] :=
  List.filter_eq_nil_iff.mpr fun _ _ => by simp

/-- Where the next ingests start, and what they leave. -/
theorem Agree.start (h : Agree len a b) :
    (startCursor len a.cursor).offset = (startCursor len b.cursor).offset
      ∧ (below (startCursor len a.cursor) a).map unnumbered
        = (below (startCursor len b.cursor) b).map unnumbered := by
  rcases h.cursors with ⟨hoffset, ha, hb⟩ | ⟨ha, hb⟩
  · rw [startCursor, startCursor, hoffset]
    by_cases hshort : len < b.cursor.offset
    · rw [if_pos hshort, if_pos hshort, below_zero, below_zero]
      exact ⟨rfl, rfl⟩
    · rw [if_neg hshort, if_neg hshort, below_all ha, below_all hb]
      exact ⟨hoffset, h.docs⟩
  · rw [ha, startCursor, startCursor, if_neg (Nat.not_lt_zero len), if_pos hb, below_zero, below_zero]
    exact ⟨rfl, rfl⟩

/-- The documents of lines are the same but for their numbers. -/
theorem kept_unnumbered (lines : List (List Char)) : ∀ seq seq' : Nat,
    (kept minTsNanos (docsFrom fmt s seq lines)).map unnumbered
      = (kept minTsNanos (docsFrom fmt s seq' lines)).map unnumbered := by
  induction lines with
  | nil => exact fun _ _ => rfl
  | cons line lines ih =>
      intro seq seq'
      have hkeeps : keeps minTsNanos (lineDoc fmt s seq line)
          = keeps minTsNanos (lineDoc fmt s seq' line) := rfl
      rw [docsFrom, docsFrom, kept_cons, kept_cons, hkeeps]
      split
      · rw [List.map_cons, List.map_cons, ih (seq + 1) (seq' + 1)]
        rfl
      · exact ih (seq + 1) (seq' + 1)

/-- An ingest that finds lines keeps the numbers in order and uses them up. -/
theorem collectedTo_numbered {start : IngestCursor} {done : List UInt8} (hne : done ≠ [])
    {index : SourceIndex} (h : Ascending PendingDoc.seq index.docs) :
    Ascending PendingDoc.seq (collectedTo fmt minTsNanos s start done index).docs
      ∧ Numbered (collectedTo fmt minTsNanos s start done index) := by
  have hbelow : ∀ doc ∈ below start index, doc.seq < start.nextSeq := fun doc hdoc =>
    of_decide_eq_true (List.mem_filter.mp hdoc).2
  rw [collectedTo, if_neg hne]
  constructor
  · refine List.pairwise_append.mpr ⟨h.sublist List.filter_sublist, ?_, ?_⟩
    · exact (DevstackFollowing.docsFrom_ascending s start.nextSeq _).sublist List.filter_sublist
    · intro doc hdoc doc' hdoc'
      exact Nat.lt_of_lt_of_le (hbelow doc hdoc) (docsFrom_ge (List.mem_of_mem_filter hdoc'))
  · intro doc hdoc
    rcases List.mem_append.mp hdoc with hdoc | hdoc
    · exact Nat.lt_of_lt_of_le (hbelow doc hdoc) (Nat.le_add_right _ _)
    · exact (kept_docsFrom_mem fmt hdoc).2.2

/-- An ingest of both. -/
theorem Agree.ingest {file : Option (List UInt8)} (h : Agree (file.getD []).length a b) :
    Agree (file.getD []).length (sourceAfter fmt minTsNanos s file a)
      (sourceAfter fmt minTsNanos s file b) := by
  cases file with
  | none => exact h
  | some bytes =>
      obtain ⟨hoffset, hbelow⟩ := h.start
      rw [Option.getD_some] at hoffset hbelow h ⊢
      rw [sourceAfter, sourceAfter, hoffset]
      by_cases hnone : completePart newline (bytes.drop (startCursor bytes.length b.cursor).offset)
        = []
      · rw [hnone, collectedTo, collectedTo, if_pos rfl, if_pos rfl]
        exact h
      · obtain ⟨hskipping, ha⟩ := @collectedTo_numbered fmt s minTsNanos
          (startCursor bytes.length a.cursor) _ hnone a h.skipping
        obtain ⟨hplain, hb⟩ := @collectedTo_numbered fmt s minTsNanos
          (startCursor bytes.length b.cursor) _ hnone b h.plain
        refine ⟨?_, hskipping, hplain, Or.inl ⟨?_, ha, hb⟩⟩
        · rw [collectedTo, collectedTo, if_neg hnone, if_neg hnone, List.map_append,
            List.map_append]
          exact congrArg₂ (· ++ ·) hbelow (kept_unnumbered _ _ _)
        · rw [collectedTo, collectedTo, if_neg hnone, if_neg hnone, hoffset]

theorem startCursor_le (len : Nat) (cursor : IngestCursor) :
    (startCursor len cursor).offset ≤ len := by
  rw [startCursor]
  split
  · exact Nat.zero_le len
  · omega

theorem markCurrent_eq (len : Nat) (cursor : IngestCursor) :
    markCurrent len cursor = ⟨len, (startCursor len cursor).nextSeq⟩ := by
  rw [markCurrent, startCursor]
  split <;> rfl

/-- An empty file is marked current: both will read it from the start. -/
theorem Agree.skip_empty (h : Agree 0 a b) : Agree 0 (skippedAt 0 a) b := by
  refine ⟨h.docs, h.skipping, h.plain, ?_⟩
  rcases h.cursors with ⟨hoffset, ha, hb⟩ | ⟨ha, hb⟩
  · rcases Nat.eq_zero_or_pos a.cursor.offset with hzero | hpos
    · have hsame : markCurrent 0 a.cursor = a.cursor := by
        rw [markCurrent, if_neg (by omega), ← hzero]
      exact Or.inl ⟨by rw [skippedAt, hsame, hoffset], by rw [skippedAt, hsame]; exact ha, hb⟩
    · refine Or.inr ⟨?_, hoffset ▸ hpos⟩
      rw [skippedAt, markCurrent, if_pos hpos]
  · refine Or.inr ⟨?_, hb⟩
    rw [skippedAt, ha]
    rfl

/-- **A FILE IS SKIPPED** where a plain ingest reads expired lines only. -/
theorem Agree.skip {bytes : List UInt8} (h : Agree bytes.length a b)
    (hexpired : ExpiredLines tools minTsNanos s bytes a) :
    Agree bytes.length (skippedAt bytes.length a)
      (sourceAfter (lineFormat tools) minTsNanos s (some bytes) b) := by
  by_cases hnil : bytes = []
  · subst hnil
    have hnothing : sourceAfter (lineFormat tools) minTsNanos s (some []) b = b := by
      rw [sourceAfter, List.drop_nil, collectedTo]
      exact if_pos rfl
    rw [hnothing]
    exact h.skip_empty
  · obtain ⟨hopen, hbroken, hold, hbelow⟩ := hexpired.resolve_left hnil
    obtain ⟨hoffset, hleft⟩ := h.start
    rw [below_all hbelow] at hleft
    rw [hoffset] at hopen hbroken hold
    have hstop := startCursor_le bytes.length b.cursor
    have hwhole := completePart_append_openPart newline
      (bytes.drop (startCursor bytes.length b.cursor).offset)
    rw [hopen, List.append_nil] at hwhole
    rw [sourceAfter, hwhole]
    by_cases hread : bytes.drop (startCursor bytes.length b.cursor).offset = []
    · -- read to the end before, so the file has not been cut
      rw [hread, collectedTo, if_pos rfl]
      have hpos : bytes.length ≠ 0 := fun he => hnil (List.length_eq_zero_iff.mp he)
      have hend : (startCursor bytes.length b.cursor).offset = bytes.length :=
        Nat.le_antisymm hstop (List.drop_eq_nil_iff.mp hread)
      have hlong : ∀ cursor, (startCursor bytes.length cursor).offset = bytes.length →
          startCursor bytes.length cursor = cursor := by
        intro cursor hcursor
        rw [startCursor] at hcursor ⊢
        split at hcursor
        · exact absurd hcursor.symm hpos
        · next hlong => exact if_neg hlong
      have hsame : markCurrent bytes.length a.cursor = a.cursor := by
        have ha := hlong a.cursor (hoffset.trans hend)
        rw [markCurrent_eq, ha]
        rw [ha] at hoffset
        rw [← hend, ← hoffset]
      rw [skippedAt, hsame]
      exact h
    · obtain ⟨hplain, hb⟩ := @collectedTo_numbered (lineFormat tools) s minTsNanos
        (startCursor bytes.length b.cursor) _ hread b h.plain
      refine ⟨?_, h.skipping, hplain, Or.inl ⟨?_, ?_, hb⟩⟩
      · have hkept : kept minTsNanos (docsFrom (lineFormat tools) s
            (startCursor bytes.length a.cursor).nextSeq
            (textLines (bytes.drop (startCursor bytes.length b.cursor).offset))) = [] :=
          List.filter_eq_nil_iff.mpr fun doc hdoc => by rw [hold doc hdoc]; exact Bool.false_ne_true
        have hnone := @kept_unnumbered (lineFormat tools) s minTsNanos
          (textLines (bytes.drop (startCursor bytes.length b.cursor).offset))
          (startCursor bytes.length a.cursor).nextSeq (startCursor bytes.length b.cursor).nextSeq
        rw [hkept] at hnone
        rw [collectedTo, if_neg hread, List.map_append, ← hnone, List.map_nil, List.append_nil]
        exact hleft
      · rw [collectedTo, if_neg hread, (strLen_scan_eq _).mpr hbroken, List.length_drop]
        exact (Nat.add_sub_cancel' hstop).symm
      · intro doc hdoc
        rw [skippedAt, markCurrent_eq]
        exact hbelow doc hdoc

end Agreement

/-! ## Runs -/

section Runs

variable {tools cat} {s : LogSource}

/-- The two indexes agree on a source. -/
def Agrees (w : Worlds ix) (s : LogSource) : Prop :=
  Agree (fileBytes w.files s).length (sourceIndex ix w.skipping s) (sourceIndex ix w.plain s)

theorem agrees_start (files : BTreeMap (List UInt8)) : Agrees (Worlds.start ix files) s := by
  have hnone : sourceIndex ix ⟨ix.empty, ∅⟩ s = ⟨[], ⟨0, 0⟩⟩ := by
    have hdocs : docsOf (ix.docs ix.empty) s = [] := by rw [ix.docs_empty]; rfl
    have hcursor : storedCursor (∅ : BTreeMap IngestCursor) s = ⟨0, 0⟩ := by
      simp [storedCursor, IngestCursor.default]
    rw [sourceIndex, hdocs, hcursor]
  rw [Agrees, Worlds.start, hnone]
  exact ⟨rfl, List.Pairwise.nil, List.Pairwise.nil,
    Or.inl ⟨rfl, fun _ h => (by cases h), fun _ h => (by cases h)⟩⟩

theorem fileBytes_written (files : BTreeMap (List UInt8)) (path : String)
    (file : Option (List UInt8)) :
    fileBytes (written files path file) s
      = if path = s.path then file.getD [] else fileBytes files s := by
  cases file with
  | none =>
      by_cases hpath : path = s.path
      · subst hpath
        simp [written, fileBytes]
      · simp [written, fileBytes, Std.ExtTreeMap.getElem?_erase, hpath]
  | some bytes =>
      by_cases hpath : path = s.path
      · subst hpath
        simp [written, fileBytes]
      · simp [written, fileBytes, Std.ExtTreeMap.getElem?_insert, hpath]

theorem agrees_write {w : Worlds ix} (h : Agrees w s) (hs : s ∈ cat.sources) {path : String}
    {file : Option (List UInt8)} (hok : SkipsExpired tools cat w (.write path file)) :
    Agrees (step tools ix cat w (.write path file)) s := by
  refine ⟨h.docs, h.skipping, h.plain, ?_⟩
  rw [step, fileBytes_written]
  by_cases hpath : path = s.path
  · rw [if_pos hpath]
    rcases h.cursors with hboth | ⟨ha, hb⟩
    · exact Or.inl hboth
    · refine Or.inr ⟨ha, hok s hs hpath.symm ?_⟩
      have hzero : (storedCursor w.skipping.cursors s).offset = 0 := congrArg IngestCursor.offset ha
      have hshort : (fileBytes w.files s).length < (storedCursor w.plain.cursors s).offset := hb
      omega
  · rw [if_neg hpath]
    exact h.cursors

/-- Ingests of some of the sources. -/
theorem agrees_step {w : Worlds ix} (h : Agrees w s) (hs : s ∈ cat.sources) (a : Action)
    (hok : SkipsExpired tools cat w a) : Agrees (step tools ix cat w a) s := by
  cases a with
  | write path file => exact agrees_write h hs hok
  | ingest minTsNanos chosen sizes =>
      have hspec := ingestSourcesAfter_sourceIndex ix (lineFormat tools) minTsNanos sizes w.files
        (@chosen_keys cat chosen)
      rw [Agrees, step]
      by_cases hchosen : chosen s = true
      · have hmem := List.mem_filter.mpr ⟨hs, hchosen⟩
        rw [(hspec w.skipping).1 s hmem, (hspec w.plain).1 s hmem]
        exact Agree.ingest h
      · rw [(hspec w.skipping).2 s (not_chosen_key hs hchosen),
          (hspec w.plain).2 s (not_chosen_key hs hchosen)]
        exact h
  | prioritized minTsNanos chosen sizes modified =>
      have hplain := ingestSourcesAfter_sourceIndex ix (lineFormat tools) minTsNanos sizes w.files
        (@chosen_keys cat chosen) w.plain
      have hspec := @ingestSourcesInPriorityBatches_sourceIndex tools ix minTsNanos sizes modified
        w.files _ (@chosen_keys cat chosen) w.skipping
      rw [Agrees, step]
      by_cases hchosen : chosen s = true
      · have hmem := List.mem_filter.mpr ⟨hs, hchosen⟩
        rw [hplain.1 s hmem, hspec.1 s hmem]
        split
        · next hexpired =>
            have hlines := hok s hmem hexpired
            cases hfile : w.files[s.path]? with
            | none =>
                rw [sourceFile, hfile] at hexpired
                exact nomatch hexpired
            | some bytes =>
                have hbytes : fileBytes w.files s = bytes := by rw [fileBytes, hfile]; rfl
                rw [hbytes] at hlines ⊢
                rw [Agrees, hbytes] at h
                exact h.skip hlines
        · exact Agree.ingest h
      · rw [hplain.2 s (not_chosen_key hs hchosen), hspec.2 s (not_chosen_key hs hchosen)]
        exact h

/-- **SKIPPING AGREES WITH PLAIN INGESTION** after every step of a run in which only
    expired lines are skipped. -/
theorem skipping_agrees_along (tools : LineTools) (ix : SearchIndex) (cat : Catalogue)
    (files : BTreeMap (List UInt8)) (actions : List Action)
    (hok : Along (step tools ix cat) (SkipsExpired tools cat) (Worlds.start ix files) actions) :
    Along (step tools ix cat) (fun w a => ∀ s ∈ cat.sources, SameLines (step tools ix cat w a) s)
      (Worlds.start ix files) actions := by
  have hstep : ∀ (w : Worlds ix) (a : Action), (∀ s ∈ cat.sources, Agrees w s) →
      SkipsExpired tools cat w a → ∀ s ∈ cat.sources, Agrees (step tools ix cat w a) s :=
    fun w a h hok s hs => agrees_step (h s hs) hs a hok
  refine along_of_guarded (step tools ix cat) hstep ?_ actions _ (fun s _ => agrees_start files) hok
  intro w a h hok s hs
  have hagrees := hstep w a h hok s hs
  exact ⟨hagrees.docs, hagrees.skipping, hagrees.plain⟩

end Runs

/-! ## A file of the source `app`, with the cutoff 2100 -/

/-- Lines with one of two timestamps. -/
def datedLines : LineTools where
  json := plainLines.json
  view := plainLines.view
  captures := plainLines.captures
  timestampNanos := fun ts =>
    if ts = "2000-01-01T00:00:00Z" then some 946684800000000000
    else if ts = "2200-01-01T00:00:00Z" then some 7258118400000000000
    else none

def oldLine : List UInt8 := "[2000-01-01T00:00:00Z] a\n".toUTF8.toList

def newLine : List UInt8 := "[2200-01-01T00:00:00Z] b\n".toUTF8.toList

def cutoff2100 : Int := 4102444800000000000

def appSource : LogSource := ⟨"source:app", "app", "/logs/app.log"⟩

def appCatalogue : Catalogue := ⟨[appSource], by decide⟩

/-- The old line is skipped, the new one is indexed. -/
theorem skipping_agrees_app :
    Along (step datedLines listIndex appCatalogue)
      (fun w a => ∀ s ∈ appCatalogue.sources,
        SameLines (step datedLines listIndex appCatalogue w a) s)
      (Worlds.start listIndex ∅)
      [.write "/logs/app.log" (some oldLine),
        .prioritized (some cutoff2100) (fun _ => true) (fun _ _ => 100) (fun _ => 1),
        .write "/logs/app.log" (some (oldLine ++ newLine)),
        .ingest (some cutoff2100) (fun _ => true) (fun _ _ => 100)] :=
  skipping_agrees_along datedLines listIndex appCatalogue ∅
    [.write "/logs/app.log" (some oldLine),
      .prioritized (some cutoff2100) (fun _ => true) (fun _ _ => 100) (fun _ => 1),
      .write "/logs/app.log" (some (oldLine ++ newLine)),
      .ingest (some cutoff2100) (fun _ => true) (fun _ _ => 100)]
    (by decide +kernel)

/-- The new line comes first: the file is judged by the old one, and both are skipped. -/
theorem last_line_older :
    ¬ Along (step datedLines listIndex appCatalogue)
      (fun w a => ∀ s ∈ appCatalogue.sources,
        SameLines (step datedLines listIndex appCatalogue w a) s)
      (Worlds.start listIndex ∅)
      [.write "/logs/app.log" (some (newLine ++ oldLine)),
        .prioritized (some cutoff2100) (fun _ => true) (fun _ _ => 100) (fun _ => 1)] := by
  rintro ⟨-, h, -⟩
  have hdocs := congrArg List.length (h appSource (by decide)).docs
  revert hdocs
  decide +kernel

end DevstackRetention
