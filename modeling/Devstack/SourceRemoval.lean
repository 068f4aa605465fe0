import Devstack.Lib.Interleaving
import Devstack.Retention
import Devstack.RunDeletion

/-! # Source removal — requests, backfills and ingests of one source

    `add_source`, `remove_source` and `source_logs_view` of
    `src/daemon/handlers/sources.rs` and the backfills of `src/daemon/source_ingest.rs`.
    A task that has resolved the files of its source keeps the list, and works through
    operations that are atomic: an ingest, a deletion, a read or a write of the state
    file.  A removal changes the ledger, the state file and the index one after the
    other, and nothing tells the tasks in flight.

    Removed sources stay removed, and files that are not in the list of a source stay
    out of its index, along every run in which no task in flight still holds files that
    are not in the list when the index is deleted, or still writes the state file when a
    removal has taken the entry out (`settled_along`).  A view that resolved the files
    before the removal indexes them again after it (`view_after_removal`). -/

namespace DevstackSourceRemoval

open DevstackModel DevstackMachine DevstackInterleaving DevstackIngest DevstackSourceNames
open DevstackIngestExact (listIndex)
open DevstackLogLine (LineTools)
open DevstackLiveTail (lineFormat plainLines)
open DevstackRetention (markSourcesCurrent prioritySourceBatches sourceFilesNewestFirst written)
open DevstackRunDeletion (Begins)

-- ── operations ────────────────────────────────────────────────────────────────

inductive SourceIndexStatus where
  | queued
  | indexing
  | current
  | error
  deriving DecidableEq

/-- What a task does after it has resolved its files. -/
inductive Op where
  /-- `load_index_state_file`. -/
  | loadState
  /-- `save_index_state_file`, with an entry for the source. -/
  | saveState (status : SourceIndexStatus)
  /-- `save_index_state_file` of `remove_index_state`: if the loaded file had an entry. -/
  | dropState
  /-- The two ways of `add_source`. -/
  | replaceOrBackfill
  /-- The two ways of `source_logs_view`. -/
  | viewOrBackfill
  | deleteRun
  /-- `ingest_sources_in_priority_batches`, up to its choice of batches. -/
  | ingestInBatches
  | mark (skipped : List LogSource)
  | ingest (batch : List LogSource)
  /-- The ingest of a backfill. -/
  | ingestUnlessCurrent
  /-- The ingest of the backfill at the start of the daemon. -/
  | indexUnlessCurrent
  /-- The ingest of a view before its query. -/
  | warmUp
  /-- The backfill of a view after its query. -/
  | backfillUnlessCurrent
  | spawnBackfill

/-- `record_source_state`. -/
def recordState (status : SourceIndexStatus) : List Op := [.loadState, .saveState status]

def replaceSourceIndex : List Op :=
  recordState .indexing ++ [.deleteRun, .ingestInBatches] ++ recordState .current

/-- `spawn_source_backfill`, what the caller does of it. -/
def spawnSourceBackfill : List Op := recordState .queued ++ [.spawnBackfill]

/-- The task that it spawns. -/
def sourceBackfill : List Op :=
  recordState .indexing ++ [.ingestUnlessCurrent] ++ recordState .current

/-- What a source is resolved for. -/
inductive Purpose where
  | addSource
  | sourceLogsView
  | registeredBackfill

def Purpose.ops : Purpose → List Op
  | .addSource => [.replaceOrBackfill]
  | .sourceLogsView => [.viewOrBackfill]
  | .registeredBackfill => recordState .queued ++ [.indexUnlessCurrent] ++ recordState .current

/-- A task of the source. -/
inductive Task where
  /-- Before `SourceRegistry::add`. -/
  | register (matched : String → Bool)
  /-- Before the ledger's part of `SourceRegistry::remove`. -/
  | unregister
  /-- Before `source_log_sources`. -/
  | resolve (purpose : Purpose)
  /-- After it, with the files, the cutoff and the entry it has last loaded. -/
  | work (sources : List LogSource) (minTsNanos : Option Int) (loaded : Option SourceIndexStatus)
      (ops : List Op)

/-- The rest of `remove_source`. -/
def removal : Task := .work [] none none [.loadState, .dropState, .deleteRun]

-- ── the world ─────────────────────────────────────────────────────────────────

/-- The files, what the ledger and the state file have of the source, and the index.  The
    sources that were ingested or marked since the last deletion are kept beside it. -/
structure Shared (ix : SearchIndex) where
  files : BTreeMap (List UInt8)
  registered : Option (String → Bool)
  entry : Option SourceIndexStatus
  st : IngestState ix
  indexedFrom : List LogSource

/-- What a step finds out: the cutoff, the sizes of the reads, the modification times and what
    `warmup_sources_for_query` selects. -/
structure Env where
  minTsNanos : Option Int
  sizes : LogSource → Nat → Nat
  modified : String → Int
  selected : LogSource → Bool

def syncSourceIngestMaxBytes : Nat := 32 * 1024 * 1024

def syncSourceIngestMaxFiles : Nat := 32

def shouldIngestSourceSynchronously (files : BTreeMap (List UInt8)) (sources : List LogSource) :
    Bool :=
  if syncSourceIngestMaxFiles < sources.length then false
  else
    ((sources.filterMap (fun s => files[s.path]?)).foldlM (fun total bytes =>
      (some (total + bytes.length)).filter (fun total => decide (total ≤ syncSourceIngestMaxBytes)))
      0).isSome

variable {ix : SearchIndex}

def sourcesAreCurrent (files : BTreeMap (List UInt8)) (st : IngestState ix)
    (sources : List LogSource) : Bool :=
  sources.all (fun s =>
    match files[s.path]? with
    | none => true
    | some bytes => st.cursors[sourceKey s]?.any (fun cursor => cursor.offset == bytes.length))

variable (tools : LineTools) (name : String) (env : Env)

/-- What an operation does to the world. -/
def Op.effect (minTsNanos : Option Int) (loaded : Option SourceIndexStatus) (w : Shared ix) :
    Op → Shared ix
  | .saveState status => { w with entry := some status }
  | .dropState => if loaded.isSome then { w with entry := none } else w
  | .deleteRun =>
      { w with st := (DevstackRunDeletion.deleteRun (sourceRunId name) ⟨w.st, ∅⟩).st, indexedFrom := [] }
  | .mark skipped =>
      { w with
        st := markSourcesCurrent w.files skipped w.st
        indexedFrom := w.indexedFrom ++ skipped }
  | .ingest batch =>
      { w with
        st := ingestSourcesAfter ix (lineFormat tools) minTsNanos env.sizes w.files batch w.st
        indexedFrom := w.indexedFrom ++ batch }
  | _ => w

/-- What it has its task do before the rest. -/
def Op.pushed (sources : List LogSource) (minTsNanos : Option Int) (w : Shared ix) :
    Op → List Op
  | .replaceOrBackfill =>
      if shouldIngestSourceSynchronously w.files sources then replaceSourceIndex
      else .deleteRun :: spawnSourceBackfill
  | .viewOrBackfill =>
      if shouldIngestSourceSynchronously w.files sources then [.ingest sources]
      else [.warmUp, .backfillUnlessCurrent]
  | .ingestInBatches =>
      let (batches, skipped) := prioritySourceBatches
        (sourceFilesNewestFirst tools env.modified w.files sources) minTsNanos
      (if skipped.isEmpty then [] else [.mark skipped]) ++ batches.map .ingest
  | .ingestUnlessCurrent =>
      if sourcesAreCurrent w.files w.st sources then [] else [.ingestInBatches]
  | .indexUnlessCurrent =>
      if sourcesAreCurrent w.files w.st sources then []
      else recordState .indexing ++ [.ingestInBatches]
  | .warmUp =>
      let selected := sources.filter env.selected
      if selected.isEmpty || sourcesAreCurrent w.files w.st selected then [] else [.ingest selected]
  | .backfillUnlessCurrent =>
      if sourcesAreCurrent w.files w.st sources then [] else spawnSourceBackfill
  | _ => []

def Op.spawned (sources : List LogSource) (minTsNanos : Option Int) : Op → List Task
  | .spawnBackfill => [.work sources minTsNanos none sourceBackfill]
  | _ => []

def Op.loads (w : Shared ix) (loaded : Option SourceIndexStatus) : Op → Option SourceIndexStatus
  | .loadState => w.entry
  | _ => loaded

def taskStep (w : Shared ix) : Task → Shared ix × List Task
  | .register matched => ({ w with registered := some matched }, [.resolve .addSource])
  | .unregister =>
      if w.registered.isSome then ({ w with registered := none }, [removal]) else (w, [])
  | .resolve purpose =>
      match w.registered with
      | none => (w, [])
      | some matched =>
          (w, [.work (resolveLogSources ⟨name, matched⟩ w.files) env.minTsNanos none purpose.ops])
  | .work _ _ _ [] => (w, [])
  | .work sources minTsNanos loaded (op :: rest) =>
      (op.effect tools name env minTsNanos loaded w,
        .work sources minTsNanos (op.loads w loaded)
          (op.pushed tools env sources minTsNanos w ++ rest) :: op.spawned sources minTsNanos)

-- ── runs ──────────────────────────────────────────────────────────────────────

inductive Request where
  | addSource (matched : String → Bool)
  | removeSource
  | sourceLogsView
  /-- `spawn_registered_source_backfill`, at the start of the daemon. -/
  | registeredBackfill

def Request.task : Request → Task
  | .addSource matched => .register matched
  | .removeSource => .unregister
  | .sourceLogsView => .resolve .sourceLogsView
  | .registeredBackfill => .resolve .registeredBackfill

abbrev State (ix : SearchIndex) : Type := Shared ix × List Task

inductive Action where
  /-- A file is appended to, truncated, replaced or removed. -/
  | write (path : String) (file : Option (List UInt8))
  | request (request : Request)
  /-- The task at a position takes its next step. -/
  | run (i : Nat) (env : Env)

def step (s : State ix) : Action → State ix
  | .write path file => ({ s.1 with files := written s.1.files path file }, s.2)
  | .request request => (s.1, s.2 ++ [request.task])
  | .run i env => stepAt (fun env w t => taskStep tools name env w t) s (i, env)

/-- No source, and nothing of it in an index that may have logs of runs. -/
def State.start (files : BTreeMap (List UInt8)) (st : IngestState ix) : State ix :=
  (⟨files, none, none, st, []⟩, [])

-- ── what is ahead of a task ───────────────────────────────────────────────────

def Op.deletes : Op → Bool
  | .deleteRun | .replaceOrBackfill => true
  | _ => false

/-- It writes the state file, or has it written. -/
def Op.saves : Op → Bool
  | .saveState _ | .replaceOrBackfill | .viewOrBackfill | .indexUnlessCurrent
  | .backfillUnlessCurrent | .spawnBackfill => true
  | _ => false

def Op.drops : Op → Bool
  | .dropState => true
  | _ => false

/-- The files that it may index. -/
def Op.writes (sources : List LogSource) : Op → List LogSource
  | .mark skipped => skipped
  | .ingest batch => batch
  | .loadState | .saveState _ | .dropState | .deleteRun => []
  | _ => sources

/-- The task has changed the ledger, and will delete the index. -/
def Task.willDelete (registered : Bool) : Task → Bool
  | .resolve .addSource => registered
  | .work _ _ _ ops => ops.any Op.deletes
  | _ => false

def Task.saves : Task → Bool
  | .work _ _ _ ops => ops.any Op.saves
  | _ => false

def Task.drops : Task → Bool
  | .work _ _ _ ops => ops.any Op.drops
  | _ => false

def Task.writes : Task → List LogSource
  | .work sources _ _ ops => ops.flatMap (Op.writes sources)
  | _ => []

def Task.ended : Task → Bool
  | .work _ _ _ [] => true
  | _ => false

/-- The files are of the source as it is registered. -/
def Fits (registered : Option (String → Bool)) (sources : List LogSource) : Prop :=
  match registered with
  | none => sources = []
  | some matched => ∀ s ∈ sources, matched s.path = true

instance : ∀ (registered : Option (String → Bool)) (sources : List LogSource),
    Decidable (Fits registered sources)
  | none, sources => inferInstanceAs (Decidable (sources = []))
  | some _, _ => inferInstanceAs (Decidable (∀ s ∈ _, _ = true))

/-- The operation that a task does next, and the entry it has last loaded. -/
def Task.next : Task → Option (Op × Option SourceIndexStatus)
  | .work _ _ loaded (op :: _) => some (op, loaded)
  | _ => none

/-- When the index is deleted all files that tasks will index are in the list of the source,
    and when the entry is taken out of the state file no task will write it again; unless
    another deletion, or removal of the entry, is ahead. -/
def AloneAt (w : Shared ix) (tasks others : List Task) (loaded : Option SourceIndexStatus) :
    Op → Prop
  | .deleteRun =>
      (∃ t ∈ others, t.willDelete w.registered.isSome = true)
        ∨ ∀ t ∈ tasks, Fits w.registered t.writes
  | .dropState =>
      w.registered.isSome = true ∨ (∃ t ∈ others, t.drops = true)
        ∨ ((∀ t ∈ tasks, t.saves = false) ∧ (w.entry = none ∨ loaded.isSome = true))
  | _ => True

def Alone (s : State ix) : Action → Prop
  | .run i _ => ∀ next ∈ s.2[i]?.bind Task.next,
      AloneAt s.1 s.2 (s.2.eraseIdx i) next.2 next.1
  | _ => True

instance (w : Shared ix) (tasks others : List Task) (loaded : Option SourceIndexStatus) :
    ∀ op : Op, Decidable (AloneAt w tasks others loaded op)
  | .deleteRun => inferInstanceAs (Decidable (_ ∨ _))
  | .dropState => inferInstanceAs (Decidable (_ ∨ _ ∨ _))
  | .loadState | .saveState _ | .replaceOrBackfill | .viewOrBackfill | .ingestInBatches | .mark _
  | .ingest _ | .ingestUnlessCurrent | .indexUnlessCurrent | .warmUp | .backfillUnlessCurrent
  | .spawnBackfill => inferInstanceAs (Decidable True)

instance (s : State ix) : ∀ a : Action, Decidable (Alone s a)
  | .run _ _ => inferInstanceAs (Decidable (∀ next ∈ _, AloneAt _ _ _ _ _))
  | .write _ _ => inferInstanceAs (Decidable True)
  | .request _ => inferInstanceAs (Decidable True)

/-- Nothing is left of a source that is removed, once its tasks have ended; and the index of a
    source that is registered has files of its list only, once no deletion is ahead. -/
structure Settled (s : State ix) : Prop where
  removed : s.1.registered = none → (∀ t ∈ s.2, t.ended = true) →
    (∀ doc ∈ ix.docs s.1.st.index, doc.runId ≠ sourceRunId name)
      ∧ (∀ key ∈ s.1.st.cursors, ¬ Begins (sourceRunId name) key)
      ∧ s.1.entry = none
  replaced : ∀ matched, s.1.registered = some matched →
    (∀ t ∈ s.2, t.willDelete true = false) →
      (∀ doc ∈ ix.docs s.1.st.index, doc.runId = sourceRunId name →
        ∃ source ∈ s.1.indexedFrom, source.runId = doc.runId ∧ source.service = doc.service)
      ∧ ∀ source ∈ s.1.indexedFrom, matched source.path = true

/-! ## One operation -/

section Operations

variable {tools name env} {sources : List LogSource} {minTsNanos : Option Int}
variable {loaded : Option SourceIndexStatus} {w : Shared ix} {op : Op}

theorem Fits.subset {registered : Option (String → Bool)} {sources' : List LogSource}
    (h : Fits registered sources) (hsub : ∀ s ∈ sources', s ∈ sources) :
    Fits registered sources' := by
  cases registered with
  | none =>
      obtain rfl : sources = [] := h
      exact List.eq_nil_iff_forall_not_mem.mpr fun s hs => (nomatch hsub s hs)
  | some matched => exact fun s hs => h s (hsub s hs)

theorem Fits.append {registered : Option (String → Bool)} {sources' : List LogSource}
    (h : Fits registered sources) (h' : Fits registered sources') :
    Fits registered (sources ++ sources') := by
  cases registered with
  | none => exact List.append_eq_nil_iff.mpr ⟨h, h'⟩
  | some matched => exact fun s hs => (List.mem_append.mp hs).elim (h s) (h' s)

theorem fits_nil (registered : Option (String → Bool)) : Fits registered [] := by
  cases registered with
  | none => rfl
  | some matched => exact fun _ hs => (nomatch hs)

theorem effect_registered :
    (op.effect tools name env minTsNanos loaded w).registered = w.registered := by
  cases op with
  | dropState => rw [Op.effect]; split <;> rfl
  | _ => rfl

/-- What is indexed is what the operation may index. -/
theorem effect_indexedFrom (sources : List LogSource) {s : LogSource}
    (hs : s ∈ (op.effect tools name env minTsNanos loaded w).indexedFrom) :
    s ∈ w.indexedFrom ∨ s ∈ op.writes sources := by
  cases op with
  | deleteRun => exact nomatch hs
  | mark skipped => exact List.mem_append.mp hs
  | ingest batch => exact List.mem_append.mp hs
  | dropState =>
      rw [Op.effect] at hs
      split at hs <;> exact Or.inl hs
  | _ => exact Or.inl hs

theorem effect_entry (hsaves : op.saves = false) (hentry : w.entry = none) :
    (op.effect tools name env minTsNanos loaded w).entry = none := by
  cases op with
  | saveState status => exact nomatch hsaves
  | dropState =>
      rw [Op.effect]
      split
      · rfl
      · exact hentry
  | _ => exact hentry

/-- The batches and the skipped files are of the task's list. -/
theorem ingestInBatches_writes {op' : Op}
    (hop : op' ∈ Op.ingestInBatches.pushed tools env sources minTsNanos w) {s : LogSource}
    (hs : s ∈ op'.writes sources) : s ∈ sources := by
  obtain ⟨hbatches, hskipped⟩ := DevstackRetention.prioritySourceBatches_files minTsNanos
    (sourceFilesNewestFirst tools env.modified w.files sources)
  rw [Op.pushed] at hop
  generalize prioritySourceBatches (sourceFilesNewestFirst tools env.modified w.files sources)
    minTsNanos = split at hbatches hskipped hop
  obtain ⟨batches, skipped⟩ := split
  rcases List.mem_append.mp hop with hop | hop
  · split at hop
    · exact nomatch hop
    · obtain rfl := List.mem_singleton.mp hop
      have hmem : s ∈ skipped := hs
      rw [show skipped = _ from hskipped] at hmem
      exact (DevstackRetention.mem_newestFirst.mp hmem).1
  · obtain ⟨batch, hbatch, rfl⟩ := List.mem_map.mp hop
    have hmem : s ∈ batches.flatten := List.mem_flatten.mpr ⟨batch, hbatch, hs⟩
    rw [show batches.flatten = _ from hbatches] at hmem
    exact (DevstackRetention.mem_newestFirst.mp hmem).1

/-- The operations that have a list of their own. -/
def Op.hasList : Op → Bool
  | .mark _ | .ingest _ => true
  | _ => false

theorem writes_of_all {ops : List Op} (hall : ops.all (fun op => !op.hasList) = true) {op' : Op}
    (hop : op' ∈ ops) {s : LogSource} (hs : s ∈ op'.writes sources) : s ∈ sources := by
  have hnone := List.all_eq_true.mp hall op' hop
  cases op' with
  | mark | ingest => exact nomatch hnone
  | loadState | saveState | dropState | deleteRun => exact nomatch hs
  | _ => exact hs

/-- What an operation has its task do writes what it may write itself. -/
theorem pushed_writes {op' : Op} (hop : op' ∈ op.pushed tools env sources minTsNanos w)
    {s : LogSource} (hs : s ∈ op'.writes sources) : s ∈ op.writes sources := by
  cases op with
  | ingestInBatches => exact ingestInBatches_writes hop hs
  | replaceOrBackfill =>
      rw [Op.pushed] at hop
      split at hop
      · exact writes_of_all rfl hop hs
      · exact writes_of_all rfl hop hs
  | viewOrBackfill =>
      rw [Op.pushed] at hop
      split at hop
      · obtain rfl := List.mem_singleton.mp hop
        exact hs
      · exact writes_of_all rfl hop hs
  | ingestUnlessCurrent | indexUnlessCurrent | backfillUnlessCurrent =>
      rw [Op.pushed] at hop
      split at hop
      · exact nomatch hop
      · exact writes_of_all rfl hop hs
  | warmUp =>
      rw [Op.pushed] at hop
      split at hop
      · exact nomatch hop
      · obtain rfl := List.mem_singleton.mp hop
        exact List.mem_of_mem_filter hs
  | _ => exact nomatch hop

/-- An operation that does not write the state file has nothing done that does. -/
theorem pushed_saves (hsaves : op.saves = false) :
    ∀ op' ∈ op.pushed tools env sources minTsNanos w, op'.saves = false := by
  intro op' hop
  cases op with
  | ingestInBatches =>
      rw [Op.pushed] at hop
      rcases List.mem_append.mp hop with hop | hop
      · split at hop
        · exact nomatch hop
        · obtain rfl := List.mem_singleton.mp hop
          rfl
      · obtain ⟨batch, -, rfl⟩ := List.mem_map.mp hop
        rfl
  | ingestUnlessCurrent | warmUp =>
      rw [Op.pushed] at hop
      split at hop
      · exact nomatch hop
      · obtain rfl := List.mem_singleton.mp hop
        rfl
  | replaceOrBackfill | viewOrBackfill | indexUnlessCurrent | backfillUnlessCurrent =>
      exact nomatch hsaves
  | _ => exact nomatch hop

/-- The deletion that an operation stands for is ahead of its task. -/
theorem pushed_deletes (hdeletes : op.deletes = true) (hne : op ≠ .deleteRun) :
    (op.pushed tools env sources minTsNanos w).any Op.deletes = true := by
  cases op with
  | deleteRun => exact absurd rfl hne
  | replaceOrBackfill =>
      rw [Op.pushed]
      split <;> rfl
  | _ => exact nomatch hdeletes

end Operations

/-! ## One step of a task -/

/-- A deletion is ahead, or what is indexed and what will be is in the list of the source. -/
def IndexOk (w : Shared ix) (tasks : List Task) : Prop :=
  (∃ t ∈ tasks, t.willDelete w.registered.isSome = true)
    ∨ (Fits w.registered w.indexedFrom ∧ ∀ t ∈ tasks, Fits w.registered t.writes)

/-- The source is registered, or its entry will be taken out of the state file, or it is not
    there and no task will write it. -/
def EntryOk (w : Shared ix) (tasks : List Task) : Prop :=
  w.registered.isSome = true ∨ (∃ t ∈ tasks, t.drops = true)
    ∨ (w.entry = none ∧ ∀ t ∈ tasks, t.saves = false)

section Steps

variable {tools name env} {w : Shared ix} {t : Task} {others : List Task}

theorem IndexOk.ended (h : IndexOk w (t :: others))
    (ht : t.willDelete w.registered.isSome = false) : IndexOk w others := by
  rcases h with ⟨t', hmem, hwill⟩ | ⟨hindexed, hwrites⟩
  · rcases List.mem_cons.mp hmem with rfl | hmem
    · rw [ht] at hwill
      exact nomatch hwill
    · exact Or.inl ⟨t', hmem, hwill⟩
  · exact Or.inr ⟨hindexed, fun t' hmem => hwrites t' (List.mem_cons_of_mem t hmem)⟩

theorem EntryOk.ended (h : EntryOk w (t :: others)) (ht : t.drops = false) : EntryOk w others := by
  rcases h with hregistered | ⟨t', hmem, hdrops⟩ | ⟨hentry, hsaves⟩
  · exact Or.inl hregistered
  · rcases List.mem_cons.mp hmem with rfl | hmem
    · rw [ht] at hdrops
      exact nomatch hdrops
    · exact Or.inr (Or.inl ⟨t', hmem, hdrops⟩)
  · exact Or.inr (Or.inr ⟨hentry, fun t' hmem => hsaves t' (List.mem_cons_of_mem t hmem)⟩)

theorem resolved_fits (name : String) (matched : String → Bool) (files : BTreeMap (List UInt8)) :
    Fits (some matched) (resolveLogSources ⟨name, matched⟩ files) := by
  intro s hs
  have hpath : s.path ∈ resolvePaths matched files := by
    rw [← @sources_paths ⟨name, matched⟩]
    exact List.mem_map_of_mem hs
  exact (List.mem_filter.mp ((List.mem_insertionSort pathLe).mp hpath)).2

theorem mem_writes {sources : List LogSource} {minTsNanos : Option Int}
    {loaded : Option SourceIndexStatus} {ops : List Op} {s : LogSource} :
    s ∈ (Task.work sources minTsNanos loaded ops).writes ↔ ∃ op ∈ ops, s ∈ op.writes sources :=
  List.mem_flatMap

/-- What the tasks after an operation write, the task before it did. -/
theorem next_writes {sources : List LogSource} {minTsNanos : Option Int}
    {loaded : Option SourceIndexStatus} {op : Op} {rest : List Op} {t' : Task}
    (ht' : t' ∈ (taskStep tools name env w (.work sources minTsNanos loaded (op :: rest))).2)
    {s : LogSource} (hs : s ∈ t'.writes) :
    s ∈ (Task.work sources minTsNanos loaded (op :: rest)).writes := by
  rw [mem_writes]
  rcases List.mem_cons.mp ht' with rfl | ht'
  · obtain ⟨op', hop, hs⟩ := mem_writes.mp hs
    rcases List.mem_append.mp hop with hop | hop
    · exact ⟨op, List.mem_cons_self, pushed_writes hop hs⟩
    · exact ⟨op', List.mem_cons_of_mem op hop, hs⟩
  · -- a backfill that is spawned has the list of its task
    refine ⟨op, List.mem_cons_self, ?_⟩
    cases op with
    | spawnBackfill =>
        obtain rfl := List.mem_singleton.mp ht'
        obtain ⟨op', hop, hs⟩ := mem_writes.mp hs
        exact writes_of_all rfl hop hs
    | _ => exact nomatch ht'

/-- The index after an operation. -/
theorem index_operation {sources : List LogSource} {minTsNanos : Option Int}
    {loaded : Option SourceIndexStatus} {op : Op} {rest : List Op}
    (h : IndexOk w (.work sources minTsNanos loaded (op :: rest) :: others))
    (hdelete : op = .deleteRun →
      (∃ t' ∈ others, t'.willDelete w.registered.isSome = true)
        ∨ ∀ t' ∈ Task.work sources minTsNanos loaded (op :: rest) :: others,
            Fits w.registered t'.writes) :
    let next := taskStep tools name env w (.work sources minTsNanos loaded (op :: rest))
    IndexOk next.1 (next.2 ++ others) := by
  intro next
  have hnext : ∀ t' ∈ next.2 ++ others,
      ∃ t'' ∈ Task.work sources minTsNanos loaded (op :: rest) :: others,
        ∀ s ∈ t'.writes, s ∈ t''.writes := by
    intro t' hmem
    rcases List.mem_append.mp hmem with hmem | hmem
    · exact ⟨_, List.mem_cons_self, fun s hs => next_writes hmem hs⟩
    · exact ⟨t', List.mem_cons_of_mem _ hmem, fun s hs => hs⟩
  have hregistered : next.1.registered = w.registered := effect_registered
  rw [IndexOk, hregistered]
  by_cases hop : op = .deleteRun
  · subst hop
    rcases hdelete rfl with ⟨t', hmem, hwill⟩ | hfits
    · exact Or.inl ⟨t', List.mem_append_right _ hmem, hwill⟩
    · refine Or.inr ⟨fits_nil _, fun t' hmem => ?_⟩
      obtain ⟨t'', hmem'', hsub⟩ := hnext t' hmem
      exact (hfits t'' hmem'').subset hsub
  · rcases h with ⟨t', hmem, hwill⟩ | ⟨hindexed, hwrites⟩
    · rcases List.mem_cons.mp hmem with rfl | hmem
      · refine Or.inl ⟨_, List.mem_cons_self, ?_⟩
        show (op.pushed tools env sources minTsNanos w ++ rest).any Op.deletes = true
        rw [List.any_append, Bool.or_eq_true]
        rcases Bool.or_eq_true_iff.mp ((List.any_cons).symm.trans hwill) with hwill | hwill
        · exact Or.inl (pushed_deletes hwill hop)
        · exact Or.inr hwill
      · exact Or.inl ⟨t', List.mem_append_right _ hmem, hwill⟩
    · refine Or.inr ⟨?_, fun t' hmem => ?_⟩
      · -- what the operation indexes is in the list as well
        refine (hindexed.append (hwrites _ List.mem_cons_self)).subset fun s hs => ?_
        rw [List.mem_append]
        rcases effect_indexedFrom sources hs with hs | hs
        · exact Or.inl hs
        · exact Or.inr (mem_writes.mpr ⟨op, List.mem_cons_self, hs⟩)
      · obtain ⟨t'', hmem'', hsub⟩ := hnext t' hmem
        exact (hwrites t'' hmem'').subset hsub

/-- **THE INDEX** after a step. -/
theorem index_step (h : IndexOk w (t :: others))
    (hdelete : ∀ sources minTsNanos loaded rest,
      t = .work sources minTsNanos loaded (.deleteRun :: rest) →
        (∃ t' ∈ others, t'.willDelete w.registered.isSome = true)
          ∨ ∀ t' ∈ t :: others, Fits w.registered t'.writes) :
    IndexOk (taskStep tools name env w t).1 ((taskStep tools name env w t).2 ++ others) := by
  cases t with
  | register matched => exact Or.inl ⟨.resolve .addSource, List.mem_cons_self, rfl⟩
  | unregister =>
      rw [taskStep]
      split
      · exact Or.inl ⟨removal, List.mem_cons_self, rfl⟩
      · exact h.ended rfl
  | resolve purpose =>
      rw [taskStep]
      cases hregistered : w.registered with
      | none =>
          refine h.ended ?_
          rw [hregistered]
          cases purpose <;> rfl
      | some matched =>
          rcases h with ⟨t', hmem, hwill⟩ | ⟨hindexed, hwrites⟩
          · rcases List.mem_cons.mp hmem with rfl | hmem
            · cases purpose with
              | addSource => exact Or.inl ⟨_, List.mem_cons_self, rfl⟩
              | sourceLogsView => exact nomatch hwill
              | registeredBackfill => exact nomatch hwill
            · exact Or.inl ⟨t', List.mem_cons_of_mem _ hmem, hwill⟩
          · refine Or.inr ⟨hindexed, fun t' hmem => ?_⟩
            rcases List.mem_cons.mp hmem with rfl | hmem
            · rw [hregistered]
              refine (resolved_fits name matched w.files).subset fun s hs => ?_
              obtain ⟨op, hop, hwrites'⟩ := mem_writes.mp hs
              cases purpose <;> exact writes_of_all rfl hop hwrites'
            · exact hwrites t' (List.mem_cons_of_mem _ hmem)
  | work sources minTsNanos loaded ops =>
      cases ops with
      | nil => exact h.ended rfl
      | cons op rest => exact index_operation h (fun hop => hdelete _ _ _ rest (by rw [hop]))

/-- A task that does not write the state file becomes tasks that do not. -/
theorem next_saves {sources : List LogSource} {minTsNanos : Option Int}
    {loaded : Option SourceIndexStatus} {op : Op} {rest : List Op}
    (h : (Task.work sources minTsNanos loaded (op :: rest)).saves = false) :
    ∀ t' ∈ (taskStep tools name env w (.work sources minTsNanos loaded (op :: rest))).2,
      t'.saves = false := by
  obtain ⟨hop, hrest⟩ := Bool.or_eq_false_iff.mp ((List.any_cons).symm.trans h)
  intro t' ht'
  rcases List.mem_cons.mp ht' with rfl | ht'
  · show (op.pushed tools env sources minTsNanos w ++ rest).any Op.saves = false
    rw [List.any_append, hrest, Bool.or_false, List.any_eq_false]
    intro op' hop'
    rw [pushed_saves hop op' hop']
    exact Bool.false_ne_true
  · cases op with
    | spawnBackfill => exact nomatch hop
    | _ => exact nomatch ht'

/-- The state file after an operation. -/
theorem entry_operation {sources : List LogSource} {minTsNanos : Option Int}
    {loaded : Option SourceIndexStatus} {op : Op} {rest : List Op}
    (h : EntryOk w (.work sources minTsNanos loaded (op :: rest) :: others))
    (hdrop : op = .dropState → w.registered.isSome = true ∨ (∃ t' ∈ others, t'.drops = true)
      ∨ ((∀ t' ∈ Task.work sources minTsNanos loaded (op :: rest) :: others, t'.saves = false)
        ∧ (w.entry = none ∨ loaded.isSome = true))) :
    let next := taskStep tools name env w (.work sources minTsNanos loaded (op :: rest))
    EntryOk next.1 (next.2 ++ others) := by
  intro next
  have hregistered : next.1.registered = w.registered := effect_registered
  rw [EntryOk, hregistered]
  have hnext : (∀ t' ∈ Task.work sources minTsNanos loaded (op :: rest) :: others,
      t'.saves = false) → ∀ t' ∈ next.2 ++ others, t'.saves = false := by
    intro hsaves t' hmem
    rcases List.mem_append.mp hmem with hmem | hmem
    · exact next_saves (hsaves _ List.mem_cons_self) t' hmem
    · exact hsaves t' (List.mem_cons_of_mem _ hmem)
  by_cases hop : op = .dropState
  · subst hop
    rcases hdrop rfl with hregistered | ⟨t', hmem, hdrops⟩ | ⟨hsaves, hentry⟩
    · exact Or.inl hregistered
    · exact Or.inr (Or.inl ⟨t', List.mem_append_right _ hmem, hdrops⟩)
    · refine Or.inr (Or.inr ⟨?_, hnext hsaves⟩)
      show (Op.dropState.effect tools name env minTsNanos loaded w).entry = none
      rw [Op.effect]
      split
      · rfl
      · next hloaded => exact hentry.resolve_right hloaded
  · rcases h with hregistered | ⟨t', hmem, hdrops⟩ | ⟨hentry, hsaves⟩
    · exact Or.inl hregistered
    · rcases List.mem_cons.mp hmem with rfl | hmem
      · refine Or.inr (Or.inl ⟨_, List.mem_cons_self, ?_⟩)
        show (op.pushed tools env sources minTsNanos w ++ rest).any Op.drops = true
        rw [List.any_append, Bool.or_eq_true]
        rcases Bool.or_eq_true_iff.mp ((List.any_cons).symm.trans hdrops) with hdrops | hdrops
        · cases op with
          | dropState => exact absurd rfl hop
          | _ => exact nomatch hdrops
        · exact Or.inr hdrops
      · exact Or.inr (Or.inl ⟨t', List.mem_append_right _ hmem, hdrops⟩)
    · refine Or.inr (Or.inr ⟨effect_entry ?_ hentry, hnext hsaves⟩)
      have hown := hsaves _ List.mem_cons_self
      exact (Bool.or_eq_false_iff.mp ((List.any_cons).symm.trans hown)).1

/-- **THE STATE FILE** after a step. -/
theorem entry_step (h : EntryOk w (t :: others))
    (hdrop : ∀ sources minTsNanos loaded rest,
      t = .work sources minTsNanos loaded (.dropState :: rest) →
        w.registered.isSome = true ∨ (∃ t' ∈ others, t'.drops = true)
          ∨ ((∀ t' ∈ t :: others, t'.saves = false) ∧ (w.entry = none ∨ loaded.isSome = true))) :
    EntryOk (taskStep tools name env w t).1 ((taskStep tools name env w t).2 ++ others) := by
  cases t with
  | register matched => exact Or.inl rfl
  | unregister =>
      rw [taskStep]
      split
      · exact Or.inr (Or.inl ⟨removal, List.mem_cons_self, rfl⟩)
      · exact h.ended rfl
  | resolve purpose =>
      rw [taskStep]
      cases hregistered : w.registered with
      | none => exact h.ended rfl
      | some matched =>
          refine Or.inl ?_
          rw [hregistered]
          rfl
  | work sources minTsNanos loaded ops =>
      cases ops with
      | nil => exact h.ended rfl
      | cons op rest => exact entry_operation h (fun hop => hdrop _ _ _ rest (by rw [hop]))

end Steps

/-! ## Where the documents come from -/

/-- The documents and cursors of the source are of what was indexed since its last deletion. -/
structure Held (w : Shared ix) : Prop where
  docs : ∀ doc ∈ ix.docs w.st.index, doc.runId = sourceRunId name →
    ∃ s ∈ w.indexedFrom, s.runId = doc.runId ∧ s.service = doc.service
  cursors : ∀ key ∈ w.st.cursors, Begins (sourceRunId name) key →
    ∃ s ∈ w.indexedFrom, sourceKey s = key

section Held

variable {tools name env} {minTsNanos : Option Int} {loaded : Option SourceIndexStatus}
variable {w : Shared ix}

theorem held_delete (w : Shared ix) :
    Held name (Op.deleteRun.effect tools name env minTsNanos loaded w) := by
  constructor
  · intro doc hdoc hrun
    rw [Op.effect, DevstackRunDeletion.deleteRun] at hdoc
    dsimp only at hdoc
    rw [ix.docs_commit, List.append_nil, List.mem_filter] at hdoc
    simp [hrun] at hdoc
  · intro key hkey hbegins
    have hnone := ((DevstackRunDeletion.deleteRun_getElem? (sourceRunId name) key
      (⟨w.st, ∅⟩ : DevstackRunDeletion.LogStore ix)).1 hbegins).1
    exact absurd hkey (fun hmem => by
      rw [← Std.ExtTreeMap.isSome_getElem?_iff_mem] at hmem
      rw [show (Op.deleteRun.effect tools name env minTsNanos loaded w).st.cursors[key]? = none
        from hnone] at hmem
      cases hmem)

theorem held_ingest (h : Held name w) (batch : List LogSource) :
    Held name ((Op.ingest batch).effect tools name env minTsNanos loaded w) := by
  obtain ⟨hdocs, hcursors⟩ := @DevstackIngestExact.ingestSourcesAfter_within
    (fun doc => doc.runId = sourceRunId name →
      ∃ s ∈ w.indexedFrom ++ batch, s.runId = doc.runId ∧ s.service = doc.service)
    (fun key => Begins (sourceRunId name) key → ∃ s ∈ w.indexedFrom ++ batch, sourceKey s = key)
    ix (lineFormat tools) minTsNanos env.sizes w.files batch w.st
    (fun doc hdoc hrun => by
      obtain ⟨s, hs, hsource⟩ := h.docs doc hdoc hrun
      exact ⟨s, List.mem_append_left _ hs, hsource⟩)
    (fun key hkey hbegins => by
      obtain ⟨s, hs, hsource⟩ := h.cursors key hkey hbegins
      exact ⟨s, List.mem_append_left _ hs, hsource⟩)
    (fun s hs => ⟨fun doc hrun hservice _ =>
        ⟨s, List.mem_append_right _ hs, hrun.symm, hservice.symm⟩,
      fun _ => ⟨s, List.mem_append_right _ hs, rfl⟩⟩)
  exact ⟨hdocs, hcursors⟩

theorem held_mark (h : Held name w) (skipped : List LogSource) :
    Held name ((Op.mark skipped).effect tools name env minTsNanos loaded w) := by
  constructor
  · intro doc hdoc hrun
    obtain ⟨s, hs, hsource⟩ := h.docs doc hdoc hrun
    exact ⟨s, List.mem_append_left _ hs, hsource⟩
  · intro key hkey hbegins
    rcases DevstackRetention.mem_foldl_markSource hkey with hkey | ⟨s, hs, hsource⟩
    · obtain ⟨s, hs, hsource⟩ := h.cursors key hkey hbegins
      exact ⟨s, List.mem_append_left _ hs, hsource⟩
    · exact ⟨s, List.mem_append_right _ hs, hsource⟩

theorem held_step (h : Held name w) (t : Task) : Held name (taskStep tools name env w t).1 := by
  cases t with
  | register matched => exact ⟨h.docs, h.cursors⟩
  | unregister =>
      rw [taskStep]
      split
      · exact ⟨h.docs, h.cursors⟩
      · exact h
  | resolve purpose =>
      rw [taskStep]
      split
      · exact h
      · exact h
  | work sources minTsNanos loaded ops =>
      cases ops with
      | nil => exact h
      | cons op rest =>
          cases op with
          | deleteRun => exact @held_delete ix tools name env minTsNanos loaded w
          | ingest batch => exact @held_ingest ix tools name env minTsNanos loaded w h batch
          | mark skipped => exact @held_mark ix tools name env minTsNanos loaded w h skipped
          | saveState status => exact ⟨h.docs, h.cursors⟩
          | dropState =>
              rw [taskStep, Op.effect]
              dsimp only
              split
              · exact ⟨h.docs, h.cursors⟩
              · exact h
          | _ => exact h

end Held

/-! ## Runs -/

section Runs

variable {tools name}

/-- What holds of every state of a run. -/
structure Inv (name : String) (s : State ix) : Prop where
  index : IndexOk s.1 s.2
  entry : EntryOk s.1 s.2
  held : Held name s.1

theorem IndexOk.congr {w : Shared ix} {tasks tasks' : List Task} (h : IndexOk w tasks)
    (hmem : ∀ t, t ∈ tasks ↔ t ∈ tasks') : IndexOk w tasks' := by
  rcases h with ⟨t, ht, hwill⟩ | ⟨hindexed, hwrites⟩
  · exact Or.inl ⟨t, (hmem t).mp ht, hwill⟩
  · exact Or.inr ⟨hindexed, fun t ht => hwrites t ((hmem t).mpr ht)⟩

theorem EntryOk.congr {w : Shared ix} {tasks tasks' : List Task} (h : EntryOk w tasks)
    (hmem : ∀ t, t ∈ tasks ↔ t ∈ tasks') : EntryOk w tasks' := by
  rcases h with hregistered | ⟨t, ht, hdrops⟩ | ⟨hentry, hsaves⟩
  · exact Or.inl hregistered
  · exact Or.inr (Or.inl ⟨t, (hmem t).mp ht, hdrops⟩)
  · exact Or.inr (Or.inr ⟨hentry, fun t ht => hsaves t ((hmem t).mpr ht)⟩)

theorem inv_run {s : State ix} (h : Inv name s) (i : Nat) (env : Env)
    (hok : Alone s (.run i env)) : Inv name (step tools name s (.run i env)) := by
  rw [step]
  cases ht : s.2[i]? with
  | none =>
      rw [stepAt_none _ ht]
      exact h
  | some t =>
      have hsplit : ∀ t', t' ∈ s.2 ↔ t' ∈ t :: s.2.eraseIdx i := fun t' => by
        rw [List.mem_cons]
        exact mem_iff_eraseIdx ht
      have hnext : ∀ t', t' ∈ (taskStep tools name env s.1 t).2 ++ s.2.eraseIdx i
          ↔ t' ∈ (stepAt (fun env w t => taskStep tools name env w t) s (i, env)).2 := fun t' => by
        rw [List.mem_append]
        exact (mem_stepAt_iff _ (a := (i, env)) ht).symm
      have hworld : (stepAt (fun env w t => taskStep tools name env w t) s (i, env)).1
          = (taskStep tools name env s.1 t).1 := by rw [stepAt_some _ ht]
      rw [Alone, ht, Option.bind_some] at hok
      refine ⟨?_, ?_, hworld ▸ held_step h.held t⟩
      · rw [hworld]
        refine (index_step (h.index.congr hsplit) ?_).congr hnext
        rintro sources minTsNanos loaded rest rfl
        have hdelete := hok (.deleteRun, loaded) rfl
        exact hdelete.imp_right fun hfits t' hmem => hfits t' ((hsplit t').mpr hmem)
      · rw [hworld]
        refine (entry_step (h.entry.congr hsplit) ?_).congr hnext
        rintro sources minTsNanos loaded rest rfl
        have hdrop := hok (.dropState, loaded) rfl
        exact hdrop.imp_right (Or.imp_right fun hfree =>
          ⟨fun t' hmem => hfree.1 t' ((hsplit t').mpr hmem), hfree.2⟩)

theorem inv_request {s : State ix} (h : Inv name s) (request : Request) :
    Inv name (step tools name s (.request request)) := by
  rw [step]
  have hnothing : request.task.saves = false ∧ request.task.writes = [] := by
    cases request <;> exact ⟨rfl, rfl⟩
  refine ⟨?_, ?_, h.held⟩
  · rcases h.index with ⟨t, ht, hwill⟩ | ⟨hindexed, hwrites⟩
    · exact Or.inl ⟨t, List.mem_append_left _ ht, hwill⟩
    · refine Or.inr ⟨hindexed, fun t ht => ?_⟩
      rcases List.mem_append.mp ht with ht | ht
      · exact hwrites t ht
      · rw [List.mem_singleton.mp ht, hnothing.2]
        exact fits_nil _
  · rcases h.entry with hregistered | ⟨t, ht, hdrops⟩ | ⟨hentry, hsaves⟩
    · exact Or.inl hregistered
    · exact Or.inr (Or.inl ⟨t, List.mem_append_left _ ht, hdrops⟩)
    · refine Or.inr (Or.inr ⟨hentry, fun t ht => ?_⟩)
      rcases List.mem_append.mp ht with ht | ht
      · exact hsaves t ht
      · rw [List.mem_singleton.mp ht, hnothing.1]

theorem inv_step {s : State ix} (h : Inv name s) (a : Action) (hok : Alone s a) :
    Inv name (step tools name s a) := by
  cases a with
  | write path file => exact ⟨h.index, h.entry, ⟨h.held.docs, h.held.cursors⟩⟩
  | request request => exact inv_request h request
  | run i env => exact inv_run h i env hok

theorem Inv.settled {s : State ix} (h : Inv name s) : Settled name s := by
  constructor
  · intro hregistered hended
    have hquiet : ∀ t ∈ s.2, ∀ registered, t.willDelete registered = false ∧ t.drops = false := by
      intro t ht registered
      have hdone := hended t ht
      cases t with
      | work sources minTsNanos loaded ops =>
          cases ops with
          | nil => exact ⟨rfl, rfl⟩
          | cons op rest => exact nomatch hdone
      | _ => exact nomatch hdone
    have hnone : s.1.indexedFrom = [] := by
      rcases h.index with ⟨t, ht, hwill⟩ | ⟨hindexed, -⟩
      · rw [(hquiet t ht _).1] at hwill
        exact nomatch hwill
      · rw [hregistered] at hindexed
        exact hindexed
    refine ⟨fun doc hdoc hrun => ?_, fun key hkey hbegins => ?_, ?_⟩
    · obtain ⟨source, hsource, -⟩ := h.held.docs doc hdoc hrun
      rw [hnone] at hsource
      exact nomatch hsource
    · obtain ⟨source, hsource, -⟩ := h.held.cursors key hkey hbegins
      rw [hnone] at hsource
      exact nomatch hsource
    · rcases h.entry with hregistered' | ⟨t, ht, hdrops⟩ | ⟨hentry, -⟩
      · rw [hregistered] at hregistered'
        exact nomatch hregistered'
      · rw [(hquiet t ht true).2] at hdrops
        exact nomatch hdrops
      · exact hentry
  · intro matched hregistered hwill
    refine ⟨h.held.docs, ?_⟩
    rcases h.index with ⟨t, ht, hwill'⟩ | ⟨hindexed, -⟩
    · rw [hregistered] at hwill'
      rw [show t.willDelete (some matched).isSome = false from hwill t ht] at hwill'
      exact nomatch hwill'
    · rw [hregistered] at hindexed
      exact hindexed

/-- **REMOVED AND REPLACED SOURCES STAY SO** along every run in which deletions and removals
    of the entry meet no task that would undo them. -/
theorem settled_along (tools : LineTools) (name : String) (ix : SearchIndex)
    (files : BTreeMap (List UInt8)) (st : IngestState ix)
    (hdocs : ∀ doc ∈ ix.docs st.index, doc.runId ≠ sourceRunId name)
    (hcursors : ∀ key ∈ st.cursors, ¬ Begins (sourceRunId name) key) (actions : List Action)
    (hok : Along (step tools name) Alone (State.start files st) actions) :
    Along (step tools name) (fun s a => Settled name (step tools name s a)) (State.start files st)
      actions := by
  have hstart : Inv name (State.start files st) :=
    ⟨Or.inr ⟨rfl, fun _ ht => (nomatch ht)⟩, Or.inr (Or.inr ⟨rfl, fun _ ht => (nomatch ht)⟩),
      ⟨fun doc hdoc hrun => absurd hrun (hdocs doc hdoc),
        fun key hkey hbegins => absurd hbegins (hcursors key hkey)⟩⟩
  have hstep : ∀ (s : State ix) (a : Action), Inv name s → Alone s a →
      Inv name (step tools name s a) := fun s a h hok => inv_step h a hok
  exact along_of_guarded (step tools name) hstep (fun s a h hok => (hstep s a h hok).settled)
    actions _ hstart hok

end Runs

/-! ## The source `app` of one file -/

def appPath : String := "/logs/app.log"

def appAdded : Action := .request (.addSource (fun path => path == appPath))

/-- Reads of 100 bytes, and no cutoff. -/
def appEnv : Env := ⟨none, fun _ _ => 100, fun _ => 1, fun _ => true⟩

/-- The task at a position takes as many steps. -/
def steps (count i : Nat) : List Action := List.replicate count (.run i appEnv)

/-- The file is there, and the source is added. -/
def appIndexed : List Action := [.write appPath (some [0x61, 0x0A]), appAdded] ++ steps 11 0

def appStart : State listIndex := State.start ∅ ⟨[], ∅⟩

/-- A view, a removal and a second view, one after the other. -/
theorem settled_app :
    Along (step plainLines "app") (fun s a => Settled "app" (step plainLines "app" s a)) appStart
      (appIndexed ++ .request .sourceLogsView :: steps 4 0
        ++ .request .removeSource :: steps 5 0 ++ .request .sourceLogsView :: steps 1 0) :=
  settled_along plainLines "app" listIndex ∅ ⟨[], ∅⟩ (fun _ hdoc => (nomatch hdoc))
    (fun _ hkey => absurd hkey Std.ExtTreeMap.not_mem_empty)
    (appIndexed ++ .request .sourceLogsView :: steps 4 0
      ++ .request .removeSource :: steps 5 0 ++ .request .sourceLogsView :: steps 1 0)
    (by decide +kernel)

/-- The view has resolved the files when the source is removed, and ingests them after the
    deletion. -/
theorem view_after_removal :
    ¬ Along (step plainLines "app") (fun s a => Settled "app" (step plainLines "app" s a)) appStart
      (appIndexed ++ [.write appPath (some [0x61, 0x0A, 0x62, 0x0A]), .request .sourceLogsView]
        ++ steps 1 0 ++ .request .removeSource :: steps 4 1 ++ steps 3 0 ++ steps 1 0) := by
  intro h
  obtain ⟨hlast, -⟩ := ((along_append _ _ _ _ _).mp h).2
  have hdocs := (hlast.removed (by decide +kernel) (by decide +kernel)).1
  revert hdocs
  decide +kernel

end DevstackSourceRemoval
