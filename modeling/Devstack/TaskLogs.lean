import Devstack.IngestExact

/-! # Task logs — a log that every execution writes anew

    `run_task` (`src/services/tasks/executor.rs`) creates the log of a task again for
    each execution, and `execute_detached_task` (`src/app/commands/tasks.rs`) ingests
    it when the task has ended.  The ingest has one number to tell a new log from a
    log that has grown: a log shorter than the stored offset is read from its start,
    any other from the offset on.

    So the index follows the executions along every run in which each new log begins
    with what was ingested of the old one or is shorter than that
    (`task_log_latest_along`).  An execution that prints as much as the one before it
    is not seen (`same_length_keeps_old_lines`). -/

namespace DevstackTaskLogs

open DevstackModel DevstackLines DevstackLossyUtf8 DevstackIngest DevstackMachine
open DevstackIngestExact hiding Action step ingested

/-- What `spawn_log_pump` has written: text, and a line break after each record. -/
structure TaskLog where
  bytes : List UInt8
  utf8 : isUtf8 bytes = true
  finished : rest newline bytes = []

/-- The source that `execute_detached_task` ingests. -/
def taskSource (runId taskName path : String) : LogSource := ⟨runId, "task:" ++ taskName, path⟩

variable (ix : SearchIndex) (fmt : LineFormat) (cat : Catalogue) (s : LogSource)

inductive Action where
  /-- `run_task`: the log is created, and this is written before it is read next. -/
  | execute (log : TaskLog)
  /-- More output of the same execution. -/
  | output (log : TaskLog)
  /-- An ingest of some of the sources, after the execution or for a query. -/
  | ingest (chosen : LogSource → Bool) (sizes : LogSource → Nat → Nat)
  /-- Another log grows. -/
  | elsewhere (path : String) (other : path ≠ s.path) (bytes : List UInt8)

def step (w : World ix) : Action s → World ix
  | .execute log => { w with files := w.files.insert s.path log.bytes }
  | .output log =>
      { w with files := w.files.insert s.path (fileBytes w.files s ++ log.bytes) }
  | .ingest chosen sizes =>
      { w with
        st := ingestSourcesAfter ix fmt none sizes w.files (cat.sources.filter chosen) w.st }
  | .elsewhere path _ bytes =>
      { w with files := w.files.insert path (w.files[path]?.getD [] ++ bytes) }

variable {ix}

/-- The new log begins with what was ingested of the old one, or it is not empty and
    shorter than that; a log that is shorter stays so until it is read. -/
def ReadAsWritten (w : World ix) : Action s → Prop
  | .execute log =>
      (log.bytes.length < (storedCursor w.st.cursors s).offset ∧ log.bytes ≠ [])
        ∨ ((storedCursor w.st.cursors s).offset ≤ (fileBytes w.files s).length
            ∧ (fileBytes w.files s).take (storedCursor w.st.cursors s).offset <+: log.bytes)
  | .output log =>
      (fileBytes w.files s).length < (storedCursor w.st.cursors s).offset →
        (fileBytes w.files s ++ log.bytes).length < (storedCursor w.st.cursors s).offset
  | .ingest _ _ => True
  | .elsewhere _ _ _ => True

instance (w : World ix) : ∀ a : Action s, Decidable (ReadAsWritten s w a)
  | .execute _ => inferInstanceAs (Decidable (_ ∨ _))
  | .output _ => inferInstanceAs (Decidable (_ → _))
  | .ingest _ _ => inferInstanceAs (Decidable True)
  | .elsewhere _ _ _ => inferInstanceAs (Decidable True)

/-- An ingest of the log leaves exactly its lines, once each. -/
def LatestOnly (w : World ix) : Action s → Prop
  | .ingest chosen sizes => s ∈ cat.sources.filter chosen →
      docsOf (ix.docs (step ix fmt cat s w (.ingest chosen sizes)).st.index) s
        = docsFrom fmt s 0 (textLines (fileBytes w.files s))
  | _ => True

/-! ## What is indexed of the log -/

/-- The index has a text `base`, which is what the log begins with, or is longer than
    the log and so is read as an older one. -/
structure Follows (w : World ix) (base : List UInt8) : Prop where
  finished : rest newline base = []
  utf8 : isUtf8 base = true
  source : sourceIndex ix w.st s = indexed fmt s base
  fileFinished : rest newline (fileBytes w.files s) = []
  fileUtf8 : isUtf8 (fileBytes w.files s) = true
  grown : base <+: fileBytes w.files s
    ∨ ((fileBytes w.files s).length < base.length ∧ fileBytes w.files s ≠ [])

variable {fmt cat s}

theorem Follows.offset {w : World ix} {base : List UInt8} (h : Follows fmt s w base) :
    (storedCursor w.st.cursors s).offset = base.length :=
  congrArg (fun si : SourceIndex => si.cursor.offset) h.source

theorem follows_start : Follows fmt s (World.start ix ∅) [] := by
  have hfile : fileBytes (∅ : BTreeMap (List UInt8)) s = [] := by simp [fileBytes]
  refine ⟨rfl, rfl, ?_, by rw [World.start, hfile]; rfl, by rw [World.start, hfile]; rfl,
    Or.inl List.nil_prefix⟩
  have hdocs : docsOf (ix.docs ix.empty) s = [] := by rw [ix.docs_empty]; rfl
  have hcursor : storedCursor (∅ : BTreeMap IngestCursor) s = ⟨0, 0⟩ := by
    simp [storedCursor, IngestCursor.default]
  rw [World.start, sourceIndex, hdocs, hcursor]
  rfl

theorem fileBytes_insert_self (files : BTreeMap (List UInt8)) (bytes : List UInt8) :
    fileBytes (files.insert s.path bytes) s = bytes := by
  simp [fileBytes]

/-- The log is written anew. -/
theorem follows_execute {w : World ix} {base : List UInt8} (h : Follows fmt s w base)
    {log : TaskLog} (hok : ReadAsWritten s w (.execute log)) :
    Follows fmt s (step ix fmt cat s w (.execute log)) base := by
  have hfile : fileBytes (step ix fmt cat s w (.execute log)).files s = log.bytes :=
    fileBytes_insert_self _ _
  refine ⟨h.finished, h.utf8, h.source, hfile ▸ log.finished, hfile ▸ log.utf8, ?_⟩
  rw [hfile]
  rw [ReadAsWritten, h.offset] at hok
  rcases hok with hshort | ⟨hlong, hinitial⟩
  · exact Or.inr hshort
  · rcases h.grown with ⟨more, hmore⟩ | ⟨hshort, -⟩
    · rw [← hmore, List.take_left] at hinitial
      exact Or.inl hinitial
    · omega

theorem follows_output {w : World ix} {base : List UInt8} (h : Follows fmt s w base)
    {log : TaskLog} (hok : ReadAsWritten s w (.output log)) :
    Follows fmt s (step ix fmt cat s w (.output log)) base := by
  have hfile : fileBytes (step ix fmt cat s w (.output log)).files s
      = fileBytes w.files s ++ log.bytes := fileBytes_insert_self _ _
  refine ⟨h.finished, h.utf8, h.source, ?_, ?_, ?_⟩
  · rw [hfile, (lines_append newline h.fileFinished log.bytes).2]
    exact log.finished
  · rw [hfile, isUtf8_append_finished h.fileFinished, h.fileUtf8, log.utf8]
    rfl
  · rw [hfile]
    rcases h.grown with hinitial | ⟨hshort, hne⟩
    · exact Or.inl (hinitial.trans (List.prefix_append _ _))
    · rw [ReadAsWritten, h.offset] at hok
      exact Or.inr ⟨hok hshort, List.append_ne_nil_of_left_ne_nil hne _⟩

theorem completePart_of_finished {bytes : List UInt8} (h : rest newline bytes = []) :
    completePart newline bytes = bytes := by
  have hcut := completePart_unique newline h (List.not_mem_nil (a := newline))
  rwa [List.append_nil] at hcut

/-- **AN INGEST OF THE LOG** leaves the log. -/
theorem sourceAfter_follows {w : World ix} {base : List UInt8} (h : Follows fmt s w base) :
    sourceAfter fmt none s w.files[s.path]? (sourceIndex ix w.st s)
      = indexed fmt s (fileBytes w.files s) := by
  have hwhole := completePart_of_finished h.fileFinished
  rw [h.source]
  cases hpath : w.files[s.path]? with
  | none =>
      -- no execution yet
      have hnil : fileBytes w.files s = [] := by rw [fileBytes, hpath]; rfl
      have hgrown := h.grown
      rw [hnil] at hgrown ⊢
      rcases hgrown with hinitial | ⟨-, hne⟩
      · rw [List.prefix_nil.mp hinitial]
        rfl
      · exact absurd rfl hne
  | some bytes =>
      have hbytes : fileBytes w.files s = bytes := by rw [fileBytes, hpath]; rfl
      have hutf8 := h.fileUtf8
      have hgrown := h.grown
      rw [hbytes] at hwhole hutf8 hgrown
      rw [hbytes]
      rcases hgrown with hinitial | ⟨hshort, hne⟩
      · rw [sourceAfter_utf8 fmt h.finished hinitial (by rw [hwhole, hutf8]), hwhole]
      · have hline : newline ∈ bytes := by
          by_contra hmem
          exact hne (hwhole.symm.trans ((completePart_eq_nil newline).mpr hmem))
        rw [sourceAfter_reset fmt none s hshort hline, hwhole, strLen_of_isUtf8 hutf8, kept_none]
        rfl

theorem ingest_latest {w : World ix} {base : List UInt8} (h : Follows fmt s w base)
    {chosen : LogSource → Bool} (sizes : LogSource → Nat → Nat)
    (hs : s ∈ cat.sources.filter chosen) :
    sourceIndex ix (step ix fmt cat s w (.ingest chosen sizes)).st s
      = indexed fmt s (fileBytes w.files s) := by
  have hafter := (ingestSourcesAfter_sourceIndex ix fmt none sizes w.files (chosen_keys chosen)
    w.st).1 s hs
  rw [sourceAfter_follows h] at hafter
  exact hafter

theorem follows_step (hs : s ∈ cat.sources) {w : World ix} (h : ∃ base, Follows fmt s w base)
    (a : Action s) (hok : ReadAsWritten s w a) :
    ∃ base, Follows fmt s (step ix fmt cat s w a) base := by
  obtain ⟨base, h⟩ := h
  cases a with
  | execute log => exact ⟨base, follows_execute h hok⟩
  | output log => exact ⟨base, follows_output h hok⟩
  | ingest chosen sizes =>
      by_cases hchosen : chosen s = true
      · exact ⟨fileBytes w.files s, h.fileFinished, h.fileUtf8,
          ingest_latest h sizes (List.mem_filter.mpr ⟨hs, hchosen⟩), h.fileFinished, h.fileUtf8,
          Or.inl List.prefix_rfl⟩
      · -- an ingest of other sources
        have hsame := (ingestSourcesAfter_sourceIndex ix fmt none sizes w.files
          (chosen_keys chosen) w.st).2 s (not_chosen_key hs hchosen)
        exact ⟨base, h.finished, h.utf8, hsame.trans h.source, h.fileFinished, h.fileUtf8, h.grown⟩
  | elsewhere path other bytes =>
      have hfile : fileBytes (step ix fmt cat s w (.elsewhere path other bytes)).files s
          = fileBytes w.files s := by
        simp [step, fileBytes, Std.ExtTreeMap.getElem?_insert, other]
      exact ⟨base, h.finished, h.utf8, h.source, hfile ▸ h.fileFinished, hfile ▸ h.fileUtf8,
        hfile ▸ h.grown⟩

/-- **THE INDEX FOLLOWS THE LATEST EXECUTION** along a run in which every new log
    begins with what was ingested of the old one or is shorter than that. -/
theorem task_log_latest_along (ix : SearchIndex) (fmt : LineFormat) (cat : Catalogue)
    (runId taskName path : String) (hs : taskSource runId taskName path ∈ cat.sources)
    (actions : List (Action (taskSource runId taskName path)))
    (hok : Along (step ix fmt cat _) (ReadAsWritten _) (World.start ix ∅) actions) :
    Along (step ix fmt cat _) (LatestOnly fmt cat _) (World.start ix ∅) actions := by
  have hstep : ∀ (w : World ix) (a : Action (taskSource runId taskName path)),
      (∃ base, Follows fmt (taskSource runId taskName path) w base) → ReadAsWritten _ w a →
        ∃ base, Follows fmt (taskSource runId taskName path) (step ix fmt cat _ w a) base :=
    fun w a h hok => follows_step hs h a hok
  have hgood : ∀ (w : World ix) (a : Action (taskSource runId taskName path)),
      (∃ base, Follows fmt (taskSource runId taskName path) w base) → ReadAsWritten _ w a →
        LatestOnly fmt cat _ w a := by
    rintro w a ⟨base, h⟩ -
    cases a with
    | ingest chosen sizes =>
        exact fun hmem => congrArg SourceIndex.docs (ingest_latest h sizes hmem)
    | execute log => trivial
    | output log => trivial
    | elsewhere path other bytes => trivial
  exact along_of_guarded (step ix fmt cat _) hstep hgood actions _ ⟨[], follows_start⟩ hok

/-! ## The task `build` of a run -/

def buildSource : LogSource := taskSource "r1" "build" "/logs/tasks/build.log"

def buildCatalogue : Catalogue := ⟨[buildSource], by decide⟩

/-- A log of one line. -/
def lineLog (c : UInt8) (hutf8 : isUtf8 [c, newline] = true)
    (hfin : rest newline [c, newline] = []) : TaskLog := ⟨[c, newline], hutf8, hfin⟩

/-- Two lines, then one. -/
theorem task_log_latest_build :
    Along (step listIndex plainFormat buildCatalogue buildSource)
      (LatestOnly plainFormat buildCatalogue buildSource) (World.start listIndex ∅)
      [.execute (lineLog 0x61 rfl rfl), .output (lineLog 0x62 rfl rfl),
        .ingest (fun _ => true) (fun _ _ => 3), .execute (lineLog 0x63 rfl rfl),
        .ingest (fun _ => true) (fun _ _ => 3)] :=
  task_log_latest_along listIndex plainFormat buildCatalogue "r1" "build" "/logs/tasks/build.log"
    (by decide)
    [.execute (lineLog 0x61 rfl rfl), .output (lineLog 0x62 rfl rfl),
      .ingest (fun _ => true) (fun _ _ => 3), .execute (lineLog 0x63 rfl rfl),
      .ingest (fun _ => true) (fun _ _ => 3)]
    (by decide)

/-- The second execution prints `b` where the first printed `a`: the log is as long as
    before, the ingest has nothing to read, and the index keeps `a`. -/
theorem same_length_keeps_old_lines :
    ¬ Along (step listIndex plainFormat buildCatalogue buildSource)
      (LatestOnly plainFormat buildCatalogue buildSource) (World.start listIndex ∅)
      [.execute (lineLog 0x61 rfl rfl), .ingest (fun _ => true) (fun _ _ => 3),
        .execute (lineLog 0x62 rfl rfl), .ingest (fun _ => true) (fun _ _ => 3)] := by
  rintro ⟨-, -, -, hlast, -⟩
  revert hlast
  rw [LatestOnly]
  decide

end DevstackTaskLogs
