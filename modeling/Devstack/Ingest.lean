import Devstack.Lib.LossyUtf8
import Devstack.Lib.Machine
import Devstack.LogFmt

/-! # Log ingest — from log files to indexed documents

    `src/infra/logs/index/ingest.rs`.  An ingest reads every source from its
    stored cursor to the end of its file in chunks, carries the partial last
    line from chunk to chunk, decodes each complete part lossily, turns its
    non-empty lines into documents and commits documents and cursors in batches.

    The search index is third-party code: `SearchIndex` has what a commit does
    to the committed documents.  How a line is split into its fields
    (`parse_log_line` and what follows it) is a parameter too: the ingest only
    carries the fields through. -/

namespace DevstackIngest

open DevstackModel DevstackLines DevstackLossyUtf8 DevstackLogFmt

structure LogSource where
  runId : String
  service : String
  path : String
  deriving DecidableEq

/-- `LogIndex::source_key`. -/
def sourceKey (source : LogSource) : String := source.runId ++ "/" ++ source.service

structure IngestCursor where
  offset : Nat
  nextSeq : Nat
  deriving DecidableEq, Repr

/-- `IngestCursor::default()`. -/
def IngestCursor.default : IngestCursor := ⟨0, 0⟩

structure ParsedLogLine where
  stream : String
  level : String
  message : String
  timestamp : Option String
  dynamicFields : List (String × String)

/-- `parse_log_line`, `extract_dynamic_json_fields_from_map` of its JSON, and
    `parse_timestamp_nanos`. -/
structure LineFormat where
  parse : String → ParsedLogLine
  timestampNanos : String → Option Int

structure PendingDoc where
  runId : String
  service : String
  stream : String
  level : String
  tsNanos : Int
  ts : String
  seq : Nat
  message : String
  raw : String
  dynamicFields : List (String × String)
  deriving DecidableEq

structure PendingUpdate where
  key : String
  cursor : IngestCursor
  runId : String
  service : String
  deleteFromSeq : Option Nat
  deriving DecidableEq

structure IngestBatch where
  pendingUpdates : List PendingUpdate
  pendingDocs : List PendingDoc
  pendingDocBytes : Nat

/-- `IngestBatch::default()`. -/
def IngestBatch.empty : IngestBatch := ⟨[], [], 0⟩

/-- The committed documents of the index.  A commit removes the documents the
    delete queries match and adds the new ones after them. -/
structure SearchIndex where
  Index : Type
  empty : Index
  docs : Index → List PendingDoc
  commit : Index → (PendingDoc → Bool) → List PendingDoc → Index
  docs_empty : docs empty = []
  docs_commit : ∀ index deleted added,
    docs (commit index deleted added) = (docs index).filter (fun d => !deleted d) ++ added

def ingestReadChunkBytes : Nat := 512 * 1024

def ingestCommitDocLimit : Nat := 10000

def ingestCommitByteLimit : Nat := 8 * 1024 * 1024

-- ── IngestBatch ───────────────────────────────────────────────────────────────

def IngestBatch.addDoc (batch : IngestBatch) (doc : PendingDoc) : IngestBatch :=
  { batch with
    pendingDocs := batch.pendingDocs ++ [doc]
    pendingDocBytes := batch.pendingDocBytes + doc.raw.utf8ByteSize + doc.message.utf8ByteSize }

/-- `record_update` on the list of pending updates. -/
def recordUpdate : List PendingUpdate → PendingUpdate → List PendingUpdate
  | [], update => [update]
  | existing :: updates, update =>
      if existing.key = update.key then
        { existing with
          cursor := update.cursor
          deleteFromSeq := existing.deleteFromSeq.or update.deleteFromSeq } :: updates
      else existing :: recordUpdate updates update

def IngestBatch.shouldFlush (batch : IngestBatch) : Bool :=
  decide (ingestCommitDocLimit ≤ batch.pendingDocs.length)
    || decide (ingestCommitByteLimit ≤ batch.pendingDocBytes)

-- ── collect_complete_lines ────────────────────────────────────────────────────

def newline : UInt8 := 0x0A

def isLineEndByte (b : UInt8) : Bool := b == 0x0D || b == newline

/-- The pieces that are `'\r'` or `'\n'`. -/
def isLineEndPiece (x : Piece) : Bool := x == ascii 0x0D || x == ascii newline

/-- The document of one line, after its line end was trimmed. -/
def lineDoc (fmt : LineFormat) (source : LogSource) (seq : Nat) (rawLine : List Char) :
    PendingDoc :=
  let line := String.ofList (stripAnsiIfNeeded rawLine)
  let parsed := fmt.parse line
  let ts := parsed.timestamp.getD ""
  { runId := source.runId
    service := source.service
    stream := parsed.stream
    level := parsed.level
    tsNanos := (fmt.timestampNanos ts).getD 0
    ts := ts
    seq := seq
    message := parsed.message
    raw := line
    dynamicFields := parsed.dynamicFields }

/-- The variables of the loop over the lines. -/
structure LineLoop where
  nextSeq : Nat
  consumedBytes : Nat
  sawCompleteLine : Bool
  batch : IngestBatch

def lineStep (fmt : LineFormat) (source : LogSource) (minTsNanos : Option Int)
    (loop : LineLoop) (rawLine : List Piece) : LineLoop :=
  let consumed := loop.consumedBytes + strLen rawLine
  let trimmed := rawLine.rdropWhile isLineEndPiece
  if trimmed = [] then { loop with consumedBytes := consumed, sawCompleteLine := true }
  else
    let doc := lineDoc fmt source loop.nextSeq (chars trimmed)
    let tooOld := match minTsNanos with
      | some minTs => decide (doc.tsNanos < minTs)
      | none => false
    { nextSeq := loop.nextSeq + 1
      consumedBytes := consumed
      sawCompleteLine := true
      batch := if tooOld then loop.batch else loop.batch.addDoc doc }

def collectCompleteLines (fmt : LineFormat) (source : LogSource) (minTsNanos : Option Int)
    (cursor : IngestCursor) (deleteFromSeq : Option Nat) (complete : List UInt8)
    (batch : IngestBatch) : IngestCursor × IngestBatch :=
  let loop := (splitInclusive (ascii newline) (scan complete)).foldl
    (lineStep fmt source minTsNanos) ⟨cursor.nextSeq, 0, false, batch⟩
  if loop.sawCompleteLine then
    let cursor := ⟨cursor.offset + loop.consumedBytes, loop.nextSeq⟩
    (cursor,
      { loop.batch with
        pendingUpdates := recordUpdate loop.batch.pendingUpdates
          ⟨sourceKey source, cursor, source.runId, source.service, deleteFromSeq⟩ })
  else ({ cursor with nextSeq := loop.nextSeq }, loop.batch)

-- ── commit_ingest_batch ───────────────────────────────────────────────────────

/-- The delete queries of a batch, on one document. -/
def deleteQuery (updates : List PendingUpdate) (doc : PendingDoc) : Bool :=
  updates.any (fun update =>
    match update.deleteFromSeq with
    | none => false
    | some fromSeq =>
        doc.runId == update.runId && doc.service == update.service && decide (fromSeq ≤ doc.seq))

/-- The index and `ingest.sources`. -/
structure IngestState (ix : SearchIndex) where
  index : ix.Index
  cursors : BTreeMap IngestCursor

def applyUpdates (cursors : BTreeMap IngestCursor) (updates : List PendingUpdate) :
    BTreeMap IngestCursor :=
  updates.foldl (fun cursors update => cursors.insert update.key update.cursor) cursors

variable (ix : SearchIndex)

def commitIngestBatch (st : IngestState ix) (batch : IngestBatch) :
    IngestState ix × IngestBatch :=
  if batch.pendingUpdates = [] then (st, batch)
  else
    (⟨ix.commit st.index (deleteQuery batch.pendingUpdates) batch.pendingDocs,
      applyUpdates st.cursors batch.pendingUpdates⟩, .empty)

-- ── ingest_sources_after ──────────────────────────────────────────────────────

/-- The variables of the read loop of one source. -/
structure ReadLoop where
  remaining : List UInt8
  carry : List UInt8
  cursor : IngestCursor
  deleteFromSeq : Option Nat
  batch : IngestBatch
  st : IngestState ix

variable (fmt : LineFormat) (source : LogSource) (minTsNanos : Option Int)

/-- One turn: `read` has given `size` bytes. -/
def readChunk (size : Nat) (loop : ReadLoop ix) : ReadLoop ix :=
  let buffered := loop.carry ++ loop.remaining.take size
  let remaining := loop.remaining.drop size
  let complete := completePart newline buffered
  if complete = [] then { loop with remaining := remaining, carry := buffered }
  else
    let previousOffset := loop.cursor.offset
    let collected :=
      collectCompleteLines fmt source minTsNanos loop.cursor loop.deleteFromSeq complete loop.batch
    let advanced :=
      if collected.1.offset = previousOffset then
        let cursor := { collected.1 with offset := collected.1.offset + complete.length }
        (cursor,
          { collected.2 with
            pendingUpdates := recordUpdate collected.2.pendingUpdates
              ⟨sourceKey source, cursor, source.runId, source.service, none⟩ })
      else collected
    let committed :=
      if advanced.2.shouldFlush then commitIngestBatch ix loop.st advanced.2
      else (loop.st, advanced.2)
    { remaining := remaining
      carry := openPart newline buffered
      cursor := advanced.1
      deleteFromSeq := none
      batch := committed.2
      st := committed.1 }

/-- How many bytes the `i`-th `read` gives, when it is free to give fewer than asked. -/
def readSize (sizes : Nat → Nat) (i : Nat) : Nat := max 1 (min (sizes i) ingestReadChunkBytes)

/-- The read loop; every turn takes a byte at least, so the bytes left are fuel enough. -/
def readLoop (sizes : Nat → Nat) : Nat → Nat → ReadLoop ix → ReadLoop ix
  | 0, _, loop => loop
  | fuel + 1, i, loop =>
      if loop.remaining = [] then loop
      else readLoop sizes fuel (i + 1)
        (readChunk ix fmt source minTsNanos (readSize sizes i) loop)

/-- The body of the loop over the sources; `stored` is the cursor read at the start. -/
def ingestSource (sizes : Nat → Nat) (stored : IngestCursor) (file : Option (List UInt8))
    (st : IngestState ix) (batch : IngestBatch) : IngestState ix × IngestBatch :=
  match file with
  | none => (st, batch)
  | some bytes =>
      if bytes.length = stored.offset then (st, batch)
      else
        let cursor := if bytes.length < stored.offset then ⟨0, 0⟩ else stored
        let remaining := bytes.drop cursor.offset
        let loop := readLoop ix fmt source minTsNanos sizes remaining.length 0
          ⟨remaining, [], cursor, some cursor.nextSeq, batch, st⟩
        (loop.st, loop.batch)

/-- The stored cursor of a source. -/
def storedCursor (cursors : BTreeMap IngestCursor) (source : LogSource) : IngestCursor :=
  cursors[sourceKey source]?.getD .default

/-- `ingest_sources_after`. -/
def ingestSourcesAfter (sizes : LogSource → Nat → Nat) (files : BTreeMap (List UInt8))
    (sources : List LogSource) (st : IngestState ix) : IngestState ix :=
  if sources = [] then st
  else
    let swept := sources.foldl (fun acc source =>
        ingestSource ix fmt source minTsNanos (sizes source) (storedCursor st.cursors source)
          files[source.path]? acc.1 acc.2)
      (st, IngestBatch.empty)
    (commitIngestBatch ix swept.1 swept.2).1

end DevstackIngest
