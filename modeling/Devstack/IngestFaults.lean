import Devstack.IngestExact
import Devstack.Lib.Faults

/-! # Ingest with faults — the writer, the commit, the cursor file

    `src/infra/logs/index/ingest.rs` again, now with everything that can fail or
    be cut off: the reads of the log, the operations queued in the index writer,
    the commit, the reload of the reader, the write of the cursor file.  A batch
    that stops half way leaves its operations in the writer, where the commit of
    a later batch finds them.

    Three things outlive a call: the committed index and the cursor file on
    disk, and in the process the cursors (`ingest.sources`) and the writer's
    queue.  `ingest_gate` is held for the whole call, so calls come one after
    the other; a log that grows during a call is the log the call read, with the
    bytes behind it appended after the call. -/

namespace DevstackIngestFaults

open DevstackModel DevstackLines DevstackLossyUtf8 DevstackIngest DevstackIngestExact
open DevstackFaults

-- ── The index writer ──────────────────────────────────────────────────────────

/-- An operation the index writer has queued. -/
inductive WriterOp where
  | delete (runId service : String) (fromSeq : Nat)
  | add (doc : PendingDoc)
  deriving DecidableEq

def WriterOp.deletes : WriterOp → PendingDoc → Bool
  | .delete runId service fromSeq, doc =>
      doc.runId == runId && doc.service == service && decide (fromSeq ≤ doc.seq)
  | .add _, _ => false

/-- The committed documents a commit of the queue removes. -/
def deleted (queue : List WriterOp) (doc : PendingDoc) : Bool := queue.any (·.deletes doc)

/-- The documents a commit of the queue adds: a delete query applies to the
    documents added before it. -/
def added : List WriterOp → List PendingDoc
  | [] => []
  | .delete _ _ _ :: queue => added queue
  | .add doc :: queue => if deleted queue doc then added queue else doc :: added queue

variable (ix : SearchIndex)

/-- What outlives an ingest call. -/
structure Store where
  index : ix.Index
  queue : List WriterOp
  sources : BTreeMap IngestCursor
  savedSources : BTreeMap IngestCursor

variable {ix}

/-- `writer.delete_query`, `writer.add_document`. -/
def Store.queueOp (op : WriterOp) (st : Store ix) : Store ix := { st with queue := st.queue ++ [op] }

/-- `writer.commit`. -/
def Store.commit (st : Store ix) : Store ix :=
  { st with index := ix.commit st.index (deleted st.queue) (added st.queue), queue := [] }

def Store.storeCursors (updates : List PendingUpdate) (st : Store ix) : Store ix :=
  { st with sources := applyUpdates st.sources updates }

/-- `atomic_write` of the cursor file. -/
def Store.writeState (st : Store ix) : Store ix := { st with savedSources := st.sources }

-- ── commit_ingest_batch ───────────────────────────────────────────────────────

def queueAll : List WriterOp → Faulty (Store ix) Unit
  | [] => pure ()
  | op :: ops => do
      act (Store.queueOp op)
      queueAll ops

def deleteOps (updates : List PendingUpdate) : List WriterOp :=
  updates.filterMap (fun update =>
    update.deleteFromSeq.map (WriterOp.delete update.runId update.service))

def commitIngestBatch (batch : IngestBatch) : Faulty (Store ix) IngestBatch :=
  if batch.pendingUpdates = [] then pure batch
  else do
    queueAll (deleteOps batch.pendingUpdates)
    queueAll (batch.pendingDocs.map .add)
    act Store.commit
    -- `reader.reload`
    act id
    act (Store.storeCursors batch.pendingUpdates)
    act Store.writeState
    pure .empty

-- ── ingest_sources_after ──────────────────────────────────────────────────────

/-- The variables of the read loop of one source. -/
structure Reader where
  remaining : List UInt8
  carry : List UInt8
  cursor : IngestCursor
  deleteFromSeq : Option Nat
  batch : IngestBatch

variable (fmt : LineFormat) (minTsNanos : Option Int) (source : LogSource)

/-- The lines of a complete part, and the cursor after them. -/
def advance (cursor : IngestCursor) (deleteFromSeq : Option Nat) (complete : List UInt8)
    (batch : IngestBatch) : IngestCursor × IngestBatch :=
  let previousOffset := cursor.offset
  let collected :=
    collectCompleteLines fmt source minTsNanos cursor deleteFromSeq complete batch
  if collected.1.offset = previousOffset then
    let cursor := { collected.1 with offset := collected.1.offset + complete.length }
    (cursor,
      { collected.2 with
        pendingUpdates := recordUpdate collected.2.pendingUpdates
          ⟨sourceKey source, cursor, source.runId, source.service, none⟩ })
  else collected

def flushIfFull (batch : IngestBatch) : Faulty (Store ix) IngestBatch :=
  if batch.shouldFlush then commitIngestBatch batch else pure batch

/-- One turn: `read` has given `size` bytes. -/
def readChunk (size : Nat) (loop : Reader) : Faulty (Store ix) Reader := do
  act id
  let buffered := loop.carry ++ loop.remaining.take size
  let remaining := loop.remaining.drop size
  let complete := completePart newline buffered
  if complete = [] then pure { loop with remaining := remaining, carry := buffered }
  else do
    let advanced :=
      advance fmt minTsNanos source loop.cursor loop.deleteFromSeq complete loop.batch
    let batch ← flushIfFull advanced.2
    pure ⟨remaining, openPart newline buffered, advanced.1, none, batch⟩

def readLoop (sizes : Nat → Nat) : Nat → Nat → Reader → Faulty (Store ix) Reader
  | 0, _, loop => pure loop
  | fuel + 1, i, loop =>
      if loop.remaining = [] then pure loop
      else do
        let loop ← readChunk fmt minTsNanos source (readSize sizes i) loop
        readLoop sizes fuel (i + 1) loop

def ingestSource (sizes : Nat → Nat) (stored : IngestCursor) (file : Option (List UInt8))
    (batch : IngestBatch) : Faulty (Store ix) IngestBatch :=
  match file with
  | none => pure batch
  | some bytes =>
      if bytes.length = stored.offset then pure batch
      else do
        -- `File::open` and `seek`
        act id
        let cursor := if bytes.length < stored.offset then ⟨0, 0⟩ else stored
        let remaining := bytes.drop cursor.offset
        let loop ← readLoop fmt minTsNanos source sizes remaining.length 0
          ⟨remaining, [], cursor, some cursor.nextSeq, batch⟩
        pure loop.batch

/-- The loop over the sources. -/
def ingestSources (sizes : LogSource → Nat → Nat) (files : BTreeMap (List UInt8))
    (cursors : BTreeMap IngestCursor) :
    List LogSource → IngestBatch → Faulty (Store ix) IngestBatch
  | [], batch => pure batch
  | source :: sources, batch => do
      let batch ← ingestSource fmt minTsNanos source (sizes source)
        (storedCursor cursors source) files[source.path]? batch
      ingestSources sizes files cursors sources batch

def ingestSourcesAfter (sizes : LogSource → Nat → Nat) (files : BTreeMap (List UInt8))
    (sources : List LogSource) : Faulty (Store ix) Unit :=
  if sources = [] then pure ()
  else do
    let st ← read
    let batch ← ingestSources fmt minTsNanos sizes files st.sources sources .empty
    let _ ← commitIngestBatch batch
    pure ()

/-! ## Without a fault -/

theorem added_append (ops ops' : List WriterOp) :
    added (ops ++ ops') = (added ops).filter (fun d => !deleted ops' d) ++ added ops' := by
  induction ops with
  | nil => rfl
  | cons op ops ih =>
      cases op with
      | delete runId service fromSeq => exact ih
      | add doc =>
          rw [List.cons_append, added, added, ih]
          have hdeleted : deleted (ops ++ ops') doc = (deleted ops doc || deleted ops' doc) :=
            List.any_append
          cases h : deleted ops doc with
          | true => simp [hdeleted, h]
          | false =>
              cases h' : deleted ops' doc with
              | true => simp [hdeleted, h, h']
              | false => simp [hdeleted, h, h']

theorem deleted_deleteOps (updates : List PendingUpdate) (doc : PendingDoc) :
    deleted (deleteOps updates) doc = deleteQuery updates doc := by
  induction updates with
  | nil => rfl
  | cons update updates ih =>
      rw [deleteOps, List.filterMap_cons, ← deleteOps]
      cases h : update.deleteFromSeq with
      | none =>
          have hskip : deleteQuery (update :: updates) doc = deleteQuery updates doc := by
            simp [deleteQuery, h]
          rw [hskip]
          exact ih
      | some fromSeq =>
          simp only [deleteQuery, deleted, List.any_cons, h, Option.map_some, WriterOp.deletes]
            at ih ⊢
          rw [ih]

theorem deleted_adds (docs : List PendingDoc) (doc : PendingDoc) :
    deleted (docs.map .add) doc = false := by
  simp [deleted, WriterOp.deletes]

theorem added_deleteOps (updates : List PendingUpdate) : added (deleteOps updates) = [] := by
  induction updates with
  | nil => rfl
  | cons update updates ih =>
      rw [deleteOps, List.filterMap_cons]
      cases update.deleteFromSeq with
      | none => exact ih
      | some fromSeq => exact ih

theorem added_adds (docs : List PendingDoc) : added (docs.map .add) = docs := by
  induction docs with
  | nil => rfl
  | cons doc docs ih => rw [List.map_cons, added, deleted_adds, ih]; rfl

/-- The operations of a batch, as `commit_ingest_batch` queues them. -/
def batchOps (batch : IngestBatch) : List WriterOp :=
  deleteOps batch.pendingUpdates ++ batch.pendingDocs.map .add

theorem deleted_batchOps (batch : IngestBatch) (doc : PendingDoc) :
    deleted (batchOps batch) doc = deleteQuery batch.pendingUpdates doc := by
  rw [deleted, batchOps, List.any_append, ← deleted, ← deleted, deleted_deleteOps, deleted_adds,
    Bool.or_false]

theorem added_batchOps (batch : IngestBatch) : added (batchOps batch) = batch.pendingDocs := by
  rw [batchOps, added_append, added_deleteOps, added_adds]
  rfl

/-- What an uninterrupted flush leaves. -/
def flushed (st : Store ix) (batch : IngestBatch) : Store ix :=
  (Store.storeCursors batch.pendingUpdates
    (Store.commit { st with queue := st.queue ++ batchOps batch })).writeState

end DevstackIngestFaults
