import Devstack.Ingest
import Mathlib.Data.List.Nodup

/-! # Exactly-once ingest — the lines of the file, their documents, the cursor

    What an ingest leaves behind is followed through the `view` of a pending
    batch: the documents and cursors a commit would make now.  Committing keeps
    the view; collecting a complete part appends the documents of its lines and
    moves the cursor by the decoded length.

    The documents are then exactly the lines of the file.  The cursor stands
    after the file's last line break exactly when decoding keeps the length of
    what was read: `ingest_exactly_once_iff`. -/

namespace DevstackIngestExact

open DevstackModel DevstackLines DevstackLossyUtf8 DevstackLogFmt DevstackIngest
open DevstackMachine

variable (ix : SearchIndex) (fmt : LineFormat) (source : LogSource)

/-! ## The lines of a file -/

/-- The newline-terminated lines that are non-empty after removing trailing CR
    and LF, decoded. -/
def textLines (file : List UInt8) : List (List Char) :=
  (((finished newline file).map (·.rdropWhile isLineEndByte)).filter (· ≠ [])).map
    (fun line => chars (scan line))

/-- The documents of consecutive lines, numbered from `seq`. -/
def docsFrom : Nat → List (List Char) → List PendingDoc
  | _, [] => []
  | seq, line :: lines => lineDoc fmt source seq line :: docsFrom (seq + 1) lines

theorem docsFrom_append (seq : Nat) (xs ys : List (List Char)) :
    docsFrom fmt source seq (xs ++ ys)
      = docsFrom fmt source seq xs ++ docsFrom fmt source (seq + xs.length) ys := by
  induction xs generalizing seq with
  | nil => rfl
  | cons x xs ih =>
      rw [List.cons_append, docsFrom, docsFrom, ih, List.length_cons, List.cons_append]
      rw [show seq + 1 + xs.length = seq + (xs.length + 1) by omega]

theorem docsFrom_length (seq : Nat) (xs : List (List Char)) :
    (docsFrom fmt source seq xs).length = xs.length := by
  induction xs generalizing seq with
  | nil => rfl
  | cons x xs ih => rw [docsFrom, List.length_cons, ih, List.length_cons]

theorem docsFrom_ge {fmt : LineFormat} {s : LogSource} {seq : Nat} {xs : List (List Char)}
    {d : PendingDoc} (h : d ∈ docsFrom fmt s seq xs) : seq ≤ d.seq := by
  induction xs generalizing seq with
  | nil => exact nomatch h
  | cons x xs ih =>
      rcases List.mem_cons.mp h with rfl | h
      · exact Nat.le_refl _
      · exact Nat.le_of_succ_le (ih h)

theorem docsFrom_mem {seq : Nat} {xs : List (List Char)} {d : PendingDoc}
    (h : d ∈ docsFrom fmt source seq xs) :
    d.runId = source.runId ∧ d.service = source.service ∧ d.seq < seq + xs.length := by
  induction xs generalizing seq with
  | nil => exact nomatch h
  | cons x xs ih =>
      rw [List.length_cons]
      rcases List.mem_cons.mp h with rfl | h
      · exact ⟨rfl, rfl, by show seq < seq + (xs.length + 1); omega⟩
      · obtain ⟨h1, h2, h3⟩ := ih h
        exact ⟨h1, h2, by omega⟩

/-- The lines of a file that begins with finished lines. -/
theorem textLines_append {as : List UInt8} (h : rest newline as = []) (bs : List UInt8) :
    textLines (as ++ bs) = textLines as ++ textLines bs := by
  rw [textLines, (lines_append newline h bs).1, List.map_append, List.filter_append,
    List.map_append]
  rfl

theorem textLines_of_not_mem {bs : List UInt8} (h : newline ∉ bs) : textLines bs = [] := by
  rw [textLines, finished_of_not_mem newline h]; rfl

/-- The open last line does not count. -/
theorem textLines_completePart (bs : List UInt8) :
    textLines (completePart newline bs) = textLines bs := by
  conv_rhs => rw [← completePart_append_openPart newline bs]
  rw [textLines_append (rest_completePart newline bs),
    textLines_of_not_mem (not_mem_openPart newline bs), List.append_nil]

/-! ## One complete part -/

theorem newline_lt : newline < 0x80 := by decide

theorem isLineEndByte_lt (b : UInt8) (h : isLineEndByte b = true) : b < 0x80 := by
  rcases Bool.or_eq_true_iff.mp h with h | h
  · rw [eq_of_beq h]; decide
  · rw [eq_of_beq h]; decide

theorem isLineEndPiece_iff (x : Piece) :
    isLineEndPiece x = true ↔ ∃ b, isLineEndByte b = true ∧ x = ascii b := by
  simp only [isLineEndPiece, isLineEndByte, Bool.or_eq_true, beq_iff_eq]
  constructor
  · rintro (h | h)
    · exact ⟨0x0D, Or.inl rfl, h⟩
    · exact ⟨newline, Or.inr rfl, h⟩
  · rintro ⟨b, rfl | rfl, rfl⟩
    · exact Or.inl rfl
    · exact Or.inr rfl

/-- Trimming the decoded line with its line break is trimming the bytes of the line. -/
theorem trim_line (line : List UInt8) :
    (scan line ++ [ascii newline]).rdropWhile isLineEndPiece
      = scan (line.rdropWhile isLineEndByte) := by
  rw [List.rdropWhile_concat_pos _ _ _ ((isLineEndPiece_iff _).mpr ⟨newline, rfl, rfl⟩)]
  exact rdropWhile_scan isLineEndByte isLineEndPiece isLineEndByte_lt isLineEndPiece_iff line

/-- The texts of a list of lines. -/
private def textsOf (ls : List (List UInt8)) : List (List Char) :=
  ((ls.map (·.rdropWhile isLineEndByte)).filter (· ≠ [])).map (fun line => chars (scan line))

private theorem textsOf_cons (l : List UInt8) (ls : List (List UInt8)) :
    textsOf (l :: ls)
      = if l.rdropWhile isLineEndByte = [] then textsOf ls
        else chars (scan (l.rdropWhile isLineEndByte)) :: textsOf ls := by
  by_cases h : l.rdropWhile isLineEndByte = []
  · rw [if_pos h]; simp [textsOf, h]
  · rw [if_neg h]; simp [textsOf, h]

/-- The documents a retention cutoff lets through. -/
def keeps (minTsNanos : Option Int) (doc : PendingDoc) : Bool :=
  match minTsNanos with
  | some minTs => !decide (doc.tsNanos < minTs)
  | none => true

def kept (minTsNanos : Option Int) (docs : List PendingDoc) : List PendingDoc :=
  docs.filter (keeps minTsNanos)

@[simp] theorem kept_nil (minTsNanos : Option Int) : kept minTsNanos [] = [] := rfl

@[simp] theorem kept_none (docs : List PendingDoc) : kept none docs = docs :=
  List.filter_eq_self.mpr (fun _ _ => rfl)

theorem kept_append (minTsNanos : Option Int) (docs docs' : List PendingDoc) :
    kept minTsNanos (docs ++ docs') = kept minTsNanos docs ++ kept minTsNanos docs' :=
  List.filter_append ..

theorem kept_cons (minTsNanos : Option Int) (doc : PendingDoc) (docs : List PendingDoc) :
    kept minTsNanos (doc :: docs)
      = if keeps minTsNanos doc = true then doc :: kept minTsNanos docs
        else kept minTsNanos docs :=
  List.filter_cons ..

/-- The step for a line that is not blank. -/
theorem lineStep_text (minTsNanos : Option Int) (loop : LineLoop) {line : List UInt8}
    (hline : line.rdropWhile isLineEndByte ≠ []) :
    let doc := lineDoc fmt source loop.nextSeq (chars (scan (line.rdropWhile isLineEndByte)))
    lineStep fmt source minTsNanos loop (scan line ++ [ascii newline])
      = { nextSeq := loop.nextSeq + 1
          consumedBytes := loop.consumedBytes + strLen (scan line ++ [ascii newline])
          sawCompleteLine := true
          batch := if keeps minTsNanos doc = true then loop.batch.addDoc doc else loop.batch } := by
  intro doc
  rw [lineStep, trim_line, if_neg (fun h => hline (scan_eq_nil.mp h))]
  cases minTsNanos with
  | none => rfl
  | some minTs =>
      by_cases hold : doc.tsNanos < minTs
      · simp [doc, keeps, hold]
      · simp [doc, keeps, hold]

/-- The loop over decoded lines. -/
theorem foldl_lineStep (minTsNanos : Option Int) (ls : List (List UInt8)) (loop : LineLoop) :
    let done := (ls.map (fun l => scan l ++ [ascii newline])).foldl
      (lineStep fmt source minTsNanos) loop
    done.nextSeq = loop.nextSeq + (textsOf ls).length
      ∧ done.consumedBytes
          = loop.consumedBytes + strLen (ls.flatMap (fun l => scan l ++ [ascii newline]))
      ∧ (ls ≠ [] → done.sawCompleteLine = true)
      ∧ (loop.sawCompleteLine = true → done.sawCompleteLine = true)
      ∧ done.batch.pendingUpdates = loop.batch.pendingUpdates
      ∧ done.batch.pendingDocs = loop.batch.pendingDocs
          ++ kept minTsNanos (docsFrom fmt source loop.nextSeq (textsOf ls)) := by
  induction ls generalizing loop with
  | nil => exact ⟨rfl, rfl, fun h => absurd rfl h, id, rfl, (List.append_nil _).symm⟩
  | cons l ls ih =>
      intro done
      obtain ⟨h1, h2, -, h4, h5, h6⟩ :=
        ih (lineStep fmt source minTsNanos loop (scan l ++ [ascii newline]))
      rw [List.flatMap_cons, strLen_append, textsOf_cons]
      have hdone : done = (ls.map (fun l => scan l ++ [ascii newline])).foldl
          (lineStep fmt source minTsNanos)
          (lineStep fmt source minTsNanos loop (scan l ++ [ascii newline])) := rfl
      rw [← hdone] at h1 h2 h4 h5 h6
      by_cases hl : l.rdropWhile isLineEndByte = []
      · have hstep : lineStep fmt source minTsNanos loop (scan l ++ [ascii newline])
            = { loop with
                consumedBytes := loop.consumedBytes + strLen (scan l ++ [ascii newline])
                sawCompleteLine := true } := by
          rw [lineStep, trim_line, if_pos (scan_eq_nil.mpr hl)]
        rw [hstep] at h1 h2 h4 h5 h6
        rw [if_pos hl]
        exact ⟨h1, h2.trans (Nat.add_assoc _ _ _), fun _ => h4 rfl, fun _ => h4 rfl, h5, h6⟩
      · rw [lineStep_text fmt source minTsNanos loop hl] at h1 h2 h4 h5 h6
        rw [if_neg hl, List.length_cons]
        refine ⟨h1.trans ?_, h2.trans (Nat.add_assoc _ _ _), fun _ => h4 rfl, fun _ => h4 rfl,
          h5.trans ?_, h6.trans ?_⟩
        · show loop.nextSeq + 1 + _ = _
          omega
        · dsimp only
          split <;> rfl
        · rw [docsFrom, kept_cons]
          dsimp only
          split
          · show (loop.batch.pendingDocs ++ [_]) ++ _ = _
            rw [List.append_assoc]; rfl
          · rfl

/-- A list of finished lines is its lines, each with its separator. -/
theorem flatMap_finished {bs : List UInt8} (h : rest newline bs = []) :
    (finished newline bs).flatMap (fun l => scan l ++ [ascii newline]) = scan bs := by
  induction bs using lines_induction newline with
  | hrest bs hbs =>
      rw [rest_of_not_mem newline hbs] at h
      rw [h]; rfl
  | hline as bs has ih =>
      rw [rest_append_cons] at h
      rw [finished_append_cons, finished_of_not_mem newline has, rest_of_not_mem newline has,
        List.nil_append, List.flatMap_cons, ih h, scan_append_ascii as bs newline_lt,
        List.append_assoc]
      rfl

theorem finished_ne_nil {bs : List UInt8} (h : rest newline bs = []) (hne : bs ≠ []) :
    finished newline bs ≠ [] := by
  intro hnil
  have hscan := flatMap_finished h
  rw [hnil] at hscan
  exact hne (scan_eq_nil.mp hscan.symm)

/-- **WHAT ONE COMPLETE PART DOES**: a document for each of its non-empty lines
    that the cutoff lets through, and a cursor moved by the decoded length. -/
theorem collectCompleteLines_after (minTsNanos : Option Int) (cursor : IngestCursor)
    (deleteFromSeq : Option Nat) {complete : List UInt8} (hrest : rest newline complete = [])
    (hne : complete ≠ []) (batch : IngestBatch) :
    let cursor' : IngestCursor :=
      ⟨cursor.offset + strLen (scan complete), cursor.nextSeq + (textLines complete).length⟩
    let collected :=
      collectCompleteLines fmt source minTsNanos cursor deleteFromSeq complete batch
    collected.1 = cursor'
      ∧ collected.2.pendingUpdates = recordUpdate batch.pendingUpdates
          ⟨sourceKey source, cursor', source.runId, source.service, deleteFromSeq⟩
      ∧ collected.2.pendingDocs = batch.pendingDocs
          ++ kept minTsNanos (docsFrom fmt source cursor.nextSeq (textLines complete)) := by
  intro cursor' collected
  have hsplit : splitInclusive (ascii newline) (scan complete)
      = (finished newline complete).map (fun l => scan l ++ [ascii newline]) := by
    obtain ⟨hfin, hre⟩ := lines_scan newline_lt complete
    rw [splitInclusive, hfin, hre, hrest, if_pos scan_nil, List.append_nil, List.map_map]
    rfl
  obtain ⟨h1, h2, h3, -, h5, h6⟩ := foldl_lineStep fmt source minTsNanos
    (finished newline complete) ⟨cursor.nextSeq, 0, false, batch⟩
  have hsaw := h3 (finished_ne_nil hrest hne)
  rw [flatMap_finished hrest, Nat.zero_add] at h2
  simp only [collected, collectCompleteLines, hsplit]
  rw [if_pos hsaw, h2, h1, h5]
  exact ⟨rfl, rfl, h6⟩

/-! ## The view of a pending batch -/

/-- The documents a commit of the batch would leave. -/
def viewDocs (st : IngestState ix) (batch : IngestBatch) : List PendingDoc :=
  (ix.docs st.index).filter (fun d => !deleteQuery batch.pendingUpdates d) ++ batch.pendingDocs

/-- The cursors a commit of the batch would leave. -/
def viewCursors (st : IngestState ix) (batch : IngestBatch) : BTreeMap IngestCursor :=
  applyUpdates st.cursors batch.pendingUpdates

def updateKeys (batch : IngestBatch) : List String := batch.pendingUpdates.map (·.key)

/-- One update for each source, and no documents without an update. -/
structure BatchOk (batch : IngestBatch) : Prop where
  keys : (updateKeys batch).Nodup
  docs : batch.pendingUpdates = [] → batch.pendingDocs = []

theorem batchOk_empty : BatchOk .empty := ⟨List.nodup_nil, fun _ => rfl⟩

/-- Committing keeps the view. -/
theorem commit_view (st : IngestState ix) {batch : IngestBatch} (hok : BatchOk batch) :
    let committed := commitIngestBatch ix st batch
    viewDocs ix committed.1 committed.2 = viewDocs ix st batch
      ∧ viewCursors ix committed.1 committed.2 = viewCursors ix st batch
      ∧ BatchOk committed.2
      ∧ (∀ k ∈ updateKeys committed.2, k ∈ updateKeys batch) := by
  intro committed
  by_cases hnil : batch.pendingUpdates = []
  · have hsame : committed = (st, batch) := if_pos hnil
    rw [hsame]
    exact ⟨rfl, rfl, hok, fun k hk => hk⟩
  · have hdone : committed = _ := if_neg hnil
    rw [hdone]
    refine ⟨?_, rfl, batchOk_empty, fun k hk => (nomatch hk)⟩
    simp [viewDocs, ix.docs_commit, IngestBatch.empty, deleteQuery]

/-- What a commit leaves is the view. -/
theorem commit_docs (st : IngestState ix) {batch : IngestBatch} (hok : BatchOk batch) :
    ix.docs (commitIngestBatch ix st batch).1.index = viewDocs ix st batch
      ∧ (commitIngestBatch ix st batch).1.cursors = viewCursors ix st batch := by
  by_cases hnil : batch.pendingUpdates = []
  · rw [commitIngestBatch, if_pos hnil]
    exact ⟨by simp [viewDocs, hnil, hok.docs hnil, deleteQuery],
      by simp [viewCursors, hnil, applyUpdates]⟩
  · rw [commitIngestBatch, if_neg hnil]
    exact ⟨ix.docs_commit _ _ _, rfl⟩

-- ── record_update ─────────────────────────────────────────────────────────────

theorem recordUpdate_keys (updates : List PendingUpdate) (update : PendingUpdate) :
    (recordUpdate updates update).map (·.key)
      = if update.key ∈ updates.map (·.key) then updates.map (·.key)
        else updates.map (·.key) ++ [update.key] := by
  induction updates with
  | nil => rfl
  | cons e es ih =>
      rw [recordUpdate]
      by_cases he : e.key = update.key
      · rw [if_pos he, if_pos (by simp [he])]; rfl
      · rw [if_neg he, List.map_cons, List.map_cons, ih]
        by_cases hmem : update.key ∈ es.map (·.key)
        · rw [if_pos hmem, if_pos (List.mem_cons_of_mem _ hmem)]
        · rw [if_neg hmem, if_neg (by simp [hmem, Ne.symm he])]; rfl

theorem recordUpdate_ne_nil (updates : List PendingUpdate) (update : PendingUpdate) :
    recordUpdate updates update ≠ [] := by
  cases updates with
  | nil => exact List.cons_ne_nil _ _
  | cons e es =>
      rw [recordUpdate]
      split <;> exact List.cons_ne_nil _ _

/-- An update under a new key comes last. -/
theorem recordUpdate_of_not_mem {updates : List PendingUpdate} {update : PendingUpdate}
    (h : update.key ∉ updates.map (·.key)) :
    recordUpdate updates update = updates ++ [update] := by
  induction updates with
  | nil => rfl
  | cons e es ih =>
      have he : ¬ e.key = update.key := fun he => h (by simp [he])
      rw [recordUpdate, if_neg he, ih (fun hm => h (List.mem_cons_of_mem _ hm))]; rfl

/-- An update without a delete adds no delete. -/
theorem deleteQuery_recordUpdate {update : PendingUpdate} (h : update.deleteFromSeq = none)
    (updates : List PendingUpdate) (d : PendingDoc) :
    deleteQuery (recordUpdate updates update) d = deleteQuery updates d := by
  induction updates with
  | nil => simp [recordUpdate, deleteQuery, h]
  | cons e es ih =>
      rw [recordUpdate]
      by_cases he : e.key = update.key
      · rw [if_pos he]; simp [deleteQuery, h]
      · rw [if_neg he]
        simp only [deleteQuery, List.any_cons] at ih ⊢
        rw [ih]

/-- Cursors under other keys do not matter for a key. -/
theorem applyUpdates_congr {cursors cursors' : BTreeMap IngestCursor} {k : String}
    (h : cursors[k]? = cursors'[k]?) (updates : List PendingUpdate) :
    (applyUpdates cursors updates)[k]? = (applyUpdates cursors' updates)[k]? := by
  induction updates generalizing cursors cursors' with
  | nil => exact h
  | cons e es ih =>
      refine ih ?_
      simp only [Std.ExtTreeMap.getElem?_insert, h]

theorem applyUpdates_of_not_mem (cursors : BTreeMap IngestCursor) {updates : List PendingUpdate}
    {k : String} (h : k ∉ updates.map (·.key)) :
    (applyUpdates cursors updates)[k]? = cursors[k]? := by
  induction updates generalizing cursors with
  | nil => rfl
  | cons e es ih =>
      have hne : e.key ≠ k := fun he => h (by simp [he])
      show (applyUpdates (cursors.insert e.key e.cursor) es)[k]? = _
      rw [ih _ (fun hm => h (List.mem_cons_of_mem _ hm))]
      simp [Std.ExtTreeMap.getElem?_insert, hne]

/-- Recording an update sets the cursor of its key. -/
theorem applyUpdates_recordUpdate (cursors : BTreeMap IngestCursor)
    {updates : List PendingUpdate} (hnodup : (updates.map (·.key)).Nodup)
    (update : PendingUpdate) (k : String) :
    (applyUpdates cursors (recordUpdate updates update))[k]?
      = if k = update.key then some update.cursor else (applyUpdates cursors updates)[k]? := by
  induction updates generalizing cursors with
  | nil =>
      show (cursors.insert update.key update.cursor)[k]? = if _ then _ else cursors[k]?
      by_cases hk : k = update.key
      · rw [if_pos hk, hk]; simp
      · rw [if_neg hk]; simp [Std.ExtTreeMap.getElem?_insert, Ne.symm hk]
  | cons e es ih =>
      obtain ⟨hmem, hnodup⟩ := List.nodup_cons.mp hnodup
      rw [recordUpdate]
      by_cases he : e.key = update.key
      · rw [if_pos he]
        show (applyUpdates (cursors.insert e.key update.cursor) es)[k]?
          = if _ then _ else (applyUpdates (cursors.insert e.key e.cursor) es)[k]?
        by_cases hk : k = update.key
        · rw [if_pos hk, applyUpdates_of_not_mem _ (by rw [hk, ← he]; exact hmem), hk, ← he]
          simp
        · rw [if_neg hk]
          refine applyUpdates_congr ?_ es
          have hek : e.key ≠ k := fun h => hk (by rw [← h, he])
          simp [Std.ExtTreeMap.getElem?_insert, hek]
      · rw [if_neg he]
        exact ih (cursors.insert e.key e.cursor) hnodup

/-! ## One source of the view -/

/-- What an index has of a source: its documents and its cursor. -/
structure SourceIndex where
  docs : List PendingDoc
  cursor : IngestCursor

/-- The key of a document's source. -/
def docKey (doc : PendingDoc) : String := doc.runId ++ "/" ++ doc.service

/-- One update for each source, and no documents without an update. -/
structure PendingOk (batch : IngestBatch) : Prop where
  keys : (updateKeys batch).Nodup
  docs : ∀ d ∈ batch.pendingDocs, docKey d ∈ updateKeys batch

theorem pendingOk_empty : PendingOk .empty := ⟨List.nodup_nil, fun _ hd => (nomatch hd)⟩

theorem PendingOk.batchOk {batch : IngestBatch} (h : PendingOk batch) : BatchOk batch := by
  refine ⟨h.keys, fun hnil => List.eq_nil_iff_forall_not_mem.mpr fun d hd => ?_⟩
  have hkey := h.docs d hd
  rw [updateKeys, hnil] at hkey
  exact nomatch hkey

/-- The documents indexed for a (run, service). -/
def docsOf (docs : List PendingDoc) (s : LogSource) : List PendingDoc :=
  docs.filter (fun d => d.runId == s.runId && d.service == s.service)

/-- What a commit of the batch would leave of a source. -/
def viewOf (st : IngestState ix) (batch : IngestBatch) (s : LogSource) : SourceIndex :=
  ⟨docsOf (viewDocs ix st batch) s, storedCursor (viewCursors ix st batch) s⟩

/-- What the committed index has of a source. -/
def sourceIndex (st : IngestState ix) (s : LogSource) : SourceIndex :=
  ⟨docsOf (ix.docs st.index) s, storedCursor st.cursors s⟩

theorem mem_docsOf {docs : List PendingDoc} {s : LogSource} {d : PendingDoc} :
    d ∈ docsOf docs s ↔ d ∈ docs ∧ d.runId = s.runId ∧ d.service = s.service := by
  rw [docsOf, List.mem_filter, Bool.and_eq_true, beq_iff_eq, beq_iff_eq]

theorem docsOf_append (docs docs' : List PendingDoc) (s : LogSource) :
    docsOf (docs ++ docs') s = docsOf docs s ++ docsOf docs' s := List.filter_append ..

theorem docsOf_eq_self {docs : List PendingDoc} {s : LogSource}
    (h : ∀ d ∈ docs, d.runId = s.runId ∧ d.service = s.service) : docsOf docs s = docs :=
  List.filter_eq_self.mpr (fun d hd => by simp [h d hd])

theorem docsOf_eq_nil {docs : List PendingDoc} {s : LogSource}
    (h : ∀ d ∈ docs, ¬ (d.runId = s.runId ∧ d.service = s.service)) : docsOf docs s = [] := by
  refine List.filter_eq_nil_iff.mpr ?_
  intro d hd hids
  rw [Bool.and_eq_true, beq_iff_eq, beq_iff_eq] at hids
  exact h d hd hids

/-- Documents of other keys are not the source's. -/
theorem docsOf_eq_nil_of_key {docs : List PendingDoc} {s : LogSource}
    (h : ∀ d ∈ docs, docKey d ≠ sourceKey s) : docsOf docs s = [] :=
  docsOf_eq_nil fun d hd hids => h d hd (by rw [docKey, sourceKey, hids.1, hids.2])

/-- A document of one source is not of a source with another key. -/
theorem not_of_source_of_ne {d : PendingDoc} {s t : LogSource} (hne : sourceKey t ≠ sourceKey s)
    (ht : (d.runId == t.runId && d.service == t.service) = true) :
    (d.runId == s.runId && d.service == s.service) = false := by
  refine Bool.eq_false_iff.mpr fun hs => hne ?_
  rw [Bool.and_eq_true, beq_iff_eq, beq_iff_eq] at hs ht
  rw [sourceKey, sourceKey, ← ht.1, ← ht.2, hs.1, hs.2]

theorem kept_docsFrom_mem {minTsNanos : Option Int} {s : LogSource} {seq : Nat}
    {lines : List (List Char)} {d : PendingDoc} (h : d ∈ kept minTsNanos (docsFrom fmt s seq lines)) :
    d.runId = s.runId ∧ d.service = s.service ∧ d.seq < seq + lines.length :=
  docsFrom_mem fmt s (List.mem_of_mem_filter h)

theorem commit_viewOf (st : IngestState ix) {batch : IngestBatch} (hok : PendingOk batch) :
    let committed := commitIngestBatch ix st batch
    (∀ s, viewOf ix committed.1 committed.2 s = viewOf ix st batch s)
      ∧ PendingOk committed.2 ∧ (∀ k ∈ updateKeys committed.2, k ∈ updateKeys batch) := by
  intro committed
  obtain ⟨hdocs, hcursors, hbatch, hkeys⟩ := commit_view ix st hok.batchOk
  refine ⟨fun s => ?_, ?_, hkeys⟩
  · rw [viewOf, viewOf, hdocs, hcursors]
  · by_cases hnil : batch.pendingUpdates = []
    · have hsame : committed = (st, batch) := if_pos hnil
      rw [hsame]
      exact hok
    · have hdone : committed = _ := if_neg hnil
      rw [hdone]
      exact pendingOk_empty

/-- What a commit leaves of a source. -/
theorem commit_sourceIndex (st : IngestState ix) {batch : IngestBatch} (hok : PendingOk batch)
    (s : LogSource) : sourceIndex ix (commitIngestBatch ix st batch).1 s = viewOf ix st batch s := by
  obtain ⟨hdocs, hcursors⟩ := commit_docs ix st hok.batchOk
  rw [sourceIndex, viewOf, hdocs, hcursors]

theorem viewOf_empty (st : IngestState ix) (s : LogSource) :
    viewOf ix st .empty s = sourceIndex ix st s := by
  have hdocs : viewDocs ix st .empty = ix.docs st.index := by
    simp [viewDocs, IngestBatch.empty, deleteQuery]
  rw [viewOf, hdocs]
  rfl

-- ── a recorded update ─────────────────────────────────────────────────────────

section Record

variable {ix source} {st : IngestState ix} {batch batch' : IngestBatch}
variable {cursor : IngestCursor} {deleteFromSeq : Option Nat} {new : List PendingDoc}

/-- A batch after one complete part of a source. -/
structure Recorded (source : LogSource) (cursor : IngestCursor) (deleteFromSeq : Option Nat)
    (new : List PendingDoc) (batch batch' : IngestBatch) : Prop where
  updates : batch'.pendingUpdates = recordUpdate batch.pendingUpdates
    ⟨sourceKey source, cursor, source.runId, source.service, deleteFromSeq⟩
  docs : batch'.pendingDocs = batch.pendingDocs ++ new
  own : ∀ d ∈ new, d.runId = source.runId ∧ d.service = source.service

theorem Recorded.keys (h : Recorded source cursor deleteFromSeq new batch batch') :
    updateKeys batch' = if sourceKey source ∈ updateKeys batch then updateKeys batch
      else updateKeys batch ++ [sourceKey source] := by
  rw [updateKeys, h.updates, recordUpdate_keys]
  rfl

theorem Recorded.mem_keys (h : Recorded source cursor deleteFromSeq new batch batch') {k : String} :
    k ∈ updateKeys batch' ↔ k ∈ updateKeys batch ∨ k = sourceKey source := by
  rw [h.keys]
  split
  · next hmem => exact ⟨Or.inl, fun hk => hk.elim id (fun hk => hk ▸ hmem)⟩
  · rw [List.mem_append, List.mem_singleton]

theorem Recorded.pendingOk (h : Recorded source cursor deleteFromSeq new batch batch')
    (hok : PendingOk batch) : PendingOk batch' := by
  constructor
  · rw [h.keys]
    split
    · exact hok.keys
    · next hnew =>
        refine List.nodup_append.mpr ⟨hok.keys, List.pairwise_singleton _ _, ?_⟩
        intro k hk k' hk' he
        rw [List.mem_singleton.mp hk'] at he
        exact hnew (he ▸ hk)
  · intro d hd
    rw [h.docs] at hd
    rw [h.mem_keys]
    rcases List.mem_append.mp hd with hd | hd
    · exact Or.inl (hok.docs d hd)
    · obtain ⟨hrun, hservice⟩ := h.own d hd
      exact Or.inr (by rw [docKey, hrun, hservice, sourceKey])

/-- The first update of a source deletes what it is numbered from; a later one deletes
    nothing. -/
theorem Recorded.deleteQuery_eq (h : Recorded source cursor deleteFromSeq new batch batch')
    (hfirst : deleteFromSeq = none ∨ sourceKey source ∉ updateKeys batch) (d : PendingDoc) :
    deleteQuery batch'.pendingUpdates d
      = (deleteQuery batch.pendingUpdates d || deleteFromSeq.any (fun fromSeq =>
          d.runId == source.runId && d.service == source.service && decide (fromSeq ≤ d.seq))) := by
  rw [h.updates]
  cases deleteFromSeq with
  | none => rw [deleteQuery_recordUpdate rfl, Option.any_none, Bool.or_false]
  | some fromSeq =>
      rw [recordUpdate_of_not_mem (hfirst.resolve_left (fun hnone => nomatch hnone))]
      simp [deleteQuery, List.any_append]

theorem Recorded.viewOf_other (h : Recorded source cursor deleteFromSeq new batch batch')
    (hok : PendingOk batch) (hfirst : deleteFromSeq = none ∨ sourceKey source ∉ updateKeys batch)
    {t : LogSource} (ht : sourceKey t ≠ sourceKey source) :
    viewOf ix st batch' t = viewOf ix st batch t := by
  have hnew : docsOf new t = [] := by
    refine docsOf_eq_nil_of_key fun d hd heq => ht ?_
    obtain ⟨hrun, hservice⟩ := h.own d hd
    rw [← heq, docKey, hrun, hservice, sourceKey]
  have hkeep : docsOf ((ix.docs st.index).filter (fun d => !deleteQuery batch'.pendingUpdates d)) t
      = docsOf ((ix.docs st.index).filter (fun d => !deleteQuery batch.pendingUpdates d)) t := by
    rw [docsOf, docsOf, List.filter_filter, List.filter_filter]
    refine List.filter_congr fun d _ => ?_
    rw [h.deleteQuery_eq hfirst]
    cases hids : (d.runId == t.runId && d.service == t.service) with
    | false => rfl
    | true =>
        have hother := not_of_source_of_ne ht hids
        cases deleteFromSeq with
        | none => rw [Option.any_none, Bool.or_false]
        | some fromSeq => rw [Option.any_some, hother, Bool.false_and, Bool.or_false]
  have hcursor : storedCursor (viewCursors ix st batch') t = storedCursor (viewCursors ix st batch) t := by
    rw [storedCursor, viewCursors, h.updates, applyUpdates_recordUpdate _ hok.keys, if_neg ht]
    rfl
  rw [viewOf, viewOf, hcursor, viewDocs, viewDocs, h.docs, docsOf_append, docsOf_append,
    docsOf_append, hnew, List.append_nil, hkeep]

theorem Recorded.viewOf_self (h : Recorded source cursor deleteFromSeq new batch batch')
    (hok : PendingOk batch) (hfirst : deleteFromSeq = none ∨ sourceKey source ∉ updateKeys batch) :
    viewOf ix st batch' source
      = ⟨(viewOf ix st batch source).docs.filter
            (fun d => deleteFromSeq.all (fun fromSeq => decide (d.seq < fromSeq))) ++ new,
          cursor⟩ := by
  have hnew : docsOf new source = new := docsOf_eq_self h.own
  -- the first update finds none of its documents pending
  have hpending : (docsOf batch.pendingDocs source).filter
      (fun d => deleteFromSeq.all (fun fromSeq => decide (d.seq < fromSeq)))
        = docsOf batch.pendingDocs source := by
    rcases hfirst with rfl | hfirst
    · exact List.filter_eq_self.mpr fun d _ => rfl
    · have hnil : docsOf batch.pendingDocs source = [] :=
        docsOf_eq_nil_of_key fun d hd heq => hfirst (heq ▸ hok.docs d hd)
      rw [hnil, List.filter_nil]
  have hkeep : docsOf ((ix.docs st.index).filter (fun d => !deleteQuery batch'.pendingUpdates d))
        source
      = (docsOf ((ix.docs st.index).filter (fun d => !deleteQuery batch.pendingUpdates d))
          source).filter (fun d => deleteFromSeq.all (fun fromSeq => decide (d.seq < fromSeq))) := by
    rw [docsOf, docsOf, List.filter_filter, List.filter_filter, List.filter_filter]
    refine List.filter_congr fun d _ => ?_
    rw [h.deleteQuery_eq hfirst]
    cases hids : (d.runId == source.runId && d.service == source.service) with
    | false => rw [Bool.false_and, Bool.and_false, Bool.false_and]
    | true =>
        cases deleteFromSeq with
        | none => rw [Option.any_none, Option.all_none, Bool.or_false]
                  rfl
        | some fromSeq =>
            have hlt : (!decide (fromSeq ≤ d.seq)) = decide (d.seq < fromSeq) := by
              rw [← decide_not, decide_eq_decide]
              exact Nat.not_le
            rw [Option.any_some, Option.all_some, Bool.true_and, Bool.true_and, Bool.not_or, hlt,
              Bool.and_true, Bool.and_comm]
  have hcursor : storedCursor (viewCursors ix st batch') source = cursor := by
    rw [storedCursor, viewCursors, h.updates, applyUpdates_recordUpdate _ hok.keys, if_pos rfl]
    rfl
  rw [viewOf, hcursor, viewDocs, h.docs, docsOf_append, docsOf_append, hnew, hkeep, viewOf, viewDocs,
    docsOf_append, List.filter_append, hpending, List.append_assoc]

end Record

-- ── the read loop ─────────────────────────────────────────────────────────────

/-- What ingesting the complete part `done` of the bytes after `start` leaves of a
    source. -/
def collectedTo (minTsNanos : Option Int) (s : LogSource) (start : IngestCursor)
    (done : List UInt8) (before : SourceIndex) : SourceIndex :=
  if done = [] then before
  else
    ⟨before.docs.filter (fun d => decide (d.seq < start.nextSeq))
        ++ kept minTsNanos (docsFrom fmt s start.nextSeq (textLines done)),
      ⟨start.offset + strLen (scan done), start.nextSeq + (textLines done).length⟩⟩

/-- What the read loop has done: `done` are the complete parts it has collected of
    the bytes `file` after `start`; no other source has changed. -/
structure Collected (minTsNanos : Option Int) (start : IngestCursor)
    (before : LogSource → SourceIndex) (keys₀ : List String) (file done : List UInt8)
    (loop : ReadLoop ix) : Prop where
  split : done ++ (loop.carry ++ loop.remaining) = file
  finished : rest newline done = []
  carry : newline ∉ loop.carry
  cursor : loop.cursor
    = ⟨start.offset + strLen (scan done), start.nextSeq + (textLines done).length⟩
  own : viewOf ix loop.st loop.batch source
    = collectedTo fmt minTsNanos source start done (before source)
  others : ∀ t : LogSource, sourceKey t ≠ sourceKey source →
    viewOf ix loop.st loop.batch t = before t
  first : done = [] → loop.deleteFromSeq = some start.nextSeq
    ∧ sourceKey source ∉ updateKeys loop.batch
  later : done ≠ [] → loop.deleteFromSeq = none
  keys : ∀ k ∈ updateKeys loop.batch, k ∈ keys₀ ∨ k = sourceKey source
  ok : PendingOk loop.batch

section Collected

variable {ix fmt source} {minTsNanos : Option Int}
variable {start : IngestCursor} {before : LogSource → SourceIndex}
variable {keys₀ : List String} {file done : List UInt8} {loop : ReadLoop ix}

theorem scan_append_length {as : List UInt8} (h : rest newline as = []) {bs : List UInt8}
    (h' : rest newline bs = []) :
    strLen (scan (as ++ bs)) = strLen (scan as) + strLen (scan bs) := by
  have hrest : rest newline (as ++ bs) = [] := by
    rw [(lines_append newline h bs).2, h']
  rw [← flatMap_finished hrest, (lines_append newline h bs).1, List.flatMap_append, strLen_append,
    flatMap_finished h, flatMap_finished h']

/-- A complete part after the parts collected so far. -/
theorem collectedTo_append (hdone : rest newline done = []) {complete : List UInt8}
    (hfin : rest newline complete = []) (hne : complete ≠ []) (si : SourceIndex) :
    collectedTo fmt minTsNanos source start (done ++ complete) si
      = ⟨(collectedTo fmt minTsNanos source start done si).docs.filter (fun d =>
            (if done = [] then some start.nextSeq else none).all
              (fun fromSeq => decide (d.seq < fromSeq)))
          ++ kept minTsNanos (docsFrom fmt source (start.nextSeq + (textLines done).length)
              (textLines complete)),
        ⟨start.offset + strLen (scan done) + strLen (scan complete),
          start.nextSeq + (textLines done).length + (textLines complete).length⟩⟩ := by
  rw [collectedTo, if_neg (List.append_ne_nil_of_right_ne_nil _ hne), scan_append_length hdone hfin,
    textLines_append hdone, List.length_append, docsFrom_append, kept_append, ← Nat.add_assoc,
    ← Nat.add_assoc]
  by_cases hnil : done = []
  · subst hnil
    rw [collectedTo, if_pos rfl, if_pos rfl]
    rfl
  · rw [collectedTo, if_neg hnil, if_neg hnil, ← List.append_assoc]
    congr 2
    exact (List.filter_eq_self.mpr fun d _ => rfl).symm

/-- One turn of the loop collects the complete part of what is buffered. -/
theorem readChunk_collects (h : Collected ix fmt source minTsNanos start before keys₀ file done loop)
    (size : Nat) :
    Collected ix fmt source minTsNanos start before keys₀ file
      (done ++ completePart newline (loop.carry ++ loop.remaining.take size))
      (readChunk ix fmt source minTsNanos size loop) := by
  have hsplit : done ++ (loop.carry ++ loop.remaining.take size ++ loop.remaining.drop size)
      = file := by
    rw [List.append_assoc loop.carry, List.take_append_drop]; exact h.split
  rw [readChunk]
  generalize loop.carry ++ loop.remaining.take size = buffered at hsplit
  have hopen := not_mem_openPart newline buffered
  have hcut := completePart_append_openPart newline buffered
  have hfin := rest_completePart newline buffered
  by_cases hnone : completePart newline buffered = []
  · rw [if_pos hnone, hnone, List.append_nil]
    rw [hnone, List.nil_append] at hcut
    rw [hcut] at hopen
    exact ⟨hsplit, h.finished, hopen, h.cursor, h.own, h.others, h.first, h.later, h.keys, h.ok⟩
  · rw [if_neg hnone]
    obtain ⟨hcur, hupd, hdocs⟩ := collectCompleteLines_after fmt source minTsNanos loop.cursor
      loop.deleteFromSeq hfin hnone loop.batch
    generalize collectCompleteLines fmt source minTsNanos loop.cursor loop.deleteFromSeq
      (completePart newline buffered) loop.batch = collected at hcur hupd hdocs
    generalize completePart newline buffered = complete at hnone hcut hfin hcur hupd hdocs
    have hpos : 0 < complete.length := List.length_pos_iff.mpr hnone
    have hmoved : ¬ collected.1.offset = loop.cursor.offset := by
      have := strLen_scan_ge complete
      rw [hcur]
      show ¬ loop.cursor.offset + _ = _
      omega
    dsimp only
    rw [if_neg hmoved]
    have hdone : done ++ complete ≠ [] := List.append_ne_nil_of_right_ne_nil _ hnone
    have hdrest : rest newline (done ++ complete) = [] := by
      rw [(lines_append newline h.finished complete).2, hfin]
    have hrecorded : Recorded source collected.1 loop.deleteFromSeq
        (kept minTsNanos (docsFrom fmt source loop.cursor.nextSeq (textLines complete)))
        loop.batch collected.2 := by
      refine ⟨?_, hdocs, fun d hd => ?_⟩
      · rw [hupd, ← hcur]
      · obtain ⟨hrun, hservice, -⟩ := kept_docsFrom_mem fmt hd
        exact ⟨hrun, hservice⟩
    have hdelete : loop.deleteFromSeq = if done = [] then some start.nextSeq else none := by
      by_cases hnil : done = []
      · rw [if_pos hnil, (h.first hnil).1]
      · rw [if_neg hnil, h.later hnil]
    have hfirst : loop.deleteFromSeq = none ∨ sourceKey source ∉ updateKeys loop.batch := by
      by_cases hnil : done = []
      · exact Or.inr (h.first hnil).2
      · exact Or.inl (h.later hnil)
    have hown : viewOf ix loop.st collected.2 source
        = collectedTo fmt minTsNanos source start (done ++ complete) (before source) := by
      rw [hrecorded.viewOf_self h.ok hfirst, collectedTo_append h.finished hfin hnone, h.own,
        hdelete, hcur, h.cursor]
    have hothers : ∀ t : LogSource, sourceKey t ≠ sourceKey source →
        viewOf ix loop.st collected.2 t = before t := by
      intro t ht
      rw [hrecorded.viewOf_other h.ok hfirst ht, h.others t ht]
    have hcursor : collected.1 = ⟨start.offset + strLen (scan (done ++ complete)),
        start.nextSeq + (textLines (done ++ complete)).length⟩ := by
      rw [hcur, h.cursor, textLines_append h.finished, scan_append_length h.finished hfin,
        List.length_append, Nat.add_assoc, Nat.add_assoc]
    have hkeys : ∀ k ∈ updateKeys collected.2, k ∈ keys₀ ∨ k = sourceKey source := by
      intro k hk
      rcases hrecorded.mem_keys.mp hk with hk | hk
      · exact h.keys k hk
      · exact Or.inr hk
    have hbytes : done ++ complete ++ (openPart newline buffered ++ loop.remaining.drop size)
        = file := by
      rw [← hsplit, List.append_assoc done, ← List.append_assoc complete, hcut]
    have hok := hrecorded.pendingOk h.ok
    by_cases hflush : collected.2.shouldFlush = true
    · rw [if_pos hflush]
      obtain ⟨hview, hok', hkeys'⟩ := commit_viewOf ix loop.st hok
      exact ⟨hbytes, hdrest, hopen, hcursor, (hview source).trans hown,
        fun t ht => (hview t).trans (hothers t ht), fun hd => absurd hd hdone, fun _ => rfl,
        fun k hk => hkeys k (hkeys' k hk), hok'⟩
    · rw [if_neg hflush]
      exact ⟨hbytes, hdrest, hopen, hcursor, hown, hothers, fun hd => absurd hd hdone,
        fun _ => rfl, hkeys, hok⟩

theorem readChunk_remaining (size : Nat) (loop : ReadLoop ix) (minTsNanos : Option Int) :
    (readChunk ix fmt source minTsNanos size loop).remaining = loop.remaining.drop size := by
  rw [readChunk]
  split <;> rfl

/-- The loop reads to the end of the file, whatever the sizes of its reads. -/
theorem readLoop_collects (sizes : Nat → Nat) :
    ∀ (fuel i : Nat) (loop : ReadLoop ix) (done : List UInt8), loop.remaining.length ≤ fuel →
      Collected ix fmt source minTsNanos start before keys₀ file done loop →
        Collected ix fmt source minTsNanos start before keys₀ file (completePart newline file)
          (readLoop ix fmt source minTsNanos sizes fuel i loop) := by
  have hend : ∀ (loop : ReadLoop ix) (done : List UInt8), loop.remaining = [] →
      Collected ix fmt source minTsNanos start before keys₀ file done loop →
        Collected ix fmt source minTsNanos start before keys₀ file (completePart newline file)
          loop := by
    intro loop done hrem h
    have hsplit := h.split
    rw [hrem, List.append_nil] at hsplit
    have hdone : completePart newline file = done := by
      rw [← hsplit]; exact completePart_unique newline h.finished h.carry
    rw [hdone]; exact h
  intro fuel
  induction fuel with
  | zero =>
      intro i loop done hlen h
      exact hend loop done (List.length_eq_zero_iff.mp (by omega)) h
  | succ fuel ih =>
      intro i loop done hlen h
      rw [readLoop]
      by_cases hrem : loop.remaining = []
      · rw [if_pos hrem]; exact hend loop done hrem h
      · rw [if_neg hrem]
        have hpos : 0 < loop.remaining.length := List.length_pos_iff.mpr hrem
        have hsize : 1 ≤ readSize sizes i := Nat.le_max_left _ _
        refine ih (i + 1) _ _ ?_ (readChunk_collects h (readSize sizes i))
        rw [readChunk_remaining, List.length_drop]
        omega

end Collected

/-! ## What an ingest leaves of a source -/

/-- Where an ingest starts to read a file of `len` bytes. -/
def startCursor (len : Nat) (stored : IngestCursor) : IngestCursor :=
  if len < stored.offset then ⟨0, 0⟩ else stored

/-- **WHAT AN INGEST LEAVES OF A SOURCE**, from its file and what was indexed of it. -/
def sourceAfter (minTsNanos : Option Int) (s : LogSource) (file : Option (List UInt8))
    (before : SourceIndex) : SourceIndex :=
  match file with
  | none => before
  | some bytes =>
      let start := startCursor bytes.length before.cursor
      collectedTo fmt minTsNanos s start (completePart newline (bytes.drop start.offset)) before

/-! ## What is indexed of a part of a log -/

/-- The part ends with a line break, so valid UTF-8 splits after it. -/
theorem isUtf8_append_finished {done : List UInt8} (hfin : rest newline done = [])
    (more : List UInt8) : isUtf8 (done ++ more) = (isUtf8 done && isUtf8 more) := by
  rcases List.eq_nil_or_concat done with rfl | ⟨before, b, rfl⟩
  · rfl
  · by_cases hb : b = newline
    · rw [hb, List.concat_eq_append, List.append_assoc, List.singleton_append,
        isUtf8_append_ascii before more newline_lt, isUtf8_append_ascii before [] newline_lt]
      simp [isUtf8]
    · rw [List.concat_eq_append] at hfin
      exact absurd hfin (rest_concat_ne_nil newline before hb)

theorem isUtf8_finished {file done more : List UInt8} (hfin : rest newline done = [])
    (hfile : done ++ more = file) (hutf8 : isUtf8 (completePart newline file) = true) :
    isUtf8 done = true := by
  rw [← hfile, completePart_append newline hfin, isUtf8_append_finished hfin,
    Bool.and_eq_true] at hutf8
  exact hutf8.1

theorem isUtf8_of_initial {as bs : List UInt8} (h : as <+: bs)
    (hutf8 : isUtf8 (completePart newline bs) = true) :
    isUtf8 (completePart newline as) = true := by
  obtain ⟨more, rfl⟩ := h
  have hsplit : completePart newline as ++ (openPart newline as ++ more) = as ++ more := by
    rw [← List.append_assoc, completePart_append_openPart]
  exact isUtf8_finished (rest_completePart newline as) hsplit hutf8

/-- Exactly the lines of `base`, with the cursor behind them. -/
def indexed (s : LogSource) (base : List UInt8) : SourceIndex :=
  ⟨docsFrom fmt s 0 (textLines base), ⟨base.length, (textLines base).length⟩⟩

/-- A log that still begins with what is indexed of it. -/
theorem sourceAfter_grown {base bytes : List UInt8} (hfin : rest newline base = [])
    (hbase : base <+: bytes) (s : LogSource) :
    sourceAfter fmt none s (some bytes) (indexed fmt s base)
      = ⟨docsFrom fmt s 0 (textLines bytes),
          ⟨base.length + strLen (scan (completePart newline (bytes.drop base.length))),
            (textLines bytes).length⟩⟩ := by
  obtain ⟨new, rfl⟩ := hbase
  have hbelow : (docsFrom fmt s 0 (textLines base)).filter
      (fun d => decide (d.seq < (textLines base).length)) = docsFrom fmt s 0 (textLines base) := by
    refine List.filter_eq_self.mpr fun d hd => decide_eq_true ?_
    have hlt := (docsFrom_mem fmt s hd).2.2
    omega
  rw [textLines_append hfin, List.length_append, docsFrom_append, Nat.zero_add, List.drop_left,
    sourceAfter]
  dsimp only [indexed]
  have hlong : ¬ (base ++ new).length < base.length := by
    rw [List.length_append]
    omega
  rw [startCursor, if_neg hlong, List.drop_left, collectedTo]
  split
  · next hnone =>
      have hnil : textLines new = [] := by rw [← textLines_completePart, hnone]; rfl
      rw [hnone, hnil]
      simp [docsFrom]
      rfl
  · rw [hbelow, textLines_completePart, kept_none]

theorem sourceAfter_utf8 {base bytes : List UInt8} (hfin : rest newline base = [])
    (hbase : base <+: bytes) (hutf8 : isUtf8 (completePart newline bytes) = true) (s : LogSource) :
    sourceAfter fmt none s (some bytes) (indexed fmt s base)
      = indexed fmt s (completePart newline bytes) := by
  rw [sourceAfter_grown fmt hfin hbase]
  obtain ⟨new, rfl⟩ := hbase
  rw [completePart_append newline hfin, isUtf8_append_finished hfin, Bool.and_eq_true] at hutf8
  rw [List.drop_left, strLen_of_isUtf8 hutf8.2, indexed, completePart_append newline hfin,
    textLines_append hfin, textLines_append hfin, textLines_completePart, List.length_append,
    List.length_append]

/-- A log shorter than its cursor is read from its start, if it has a line. -/
theorem sourceAfter_reset (minTsNanos : Option Int) (s : LogSource) {bytes : List UInt8}
    {before : SourceIndex} (hshort : bytes.length < before.cursor.offset)
    (hline : newline ∈ bytes) :
    sourceAfter fmt minTsNanos s (some bytes) before
      = ⟨kept minTsNanos (docsFrom fmt s 0 (textLines bytes)),
          ⟨strLen (scan (completePart newline bytes)), (textLines bytes).length⟩⟩ := by
  have hne : completePart newline bytes ≠ [] := fun hnil =>
    (completePart_eq_nil newline).mp hnil hline
  have hnone : before.docs.filter (fun d => decide (d.seq < 0)) = [] :=
    List.filter_eq_nil_iff.mpr fun d _ => by simp
  rw [sourceAfter, startCursor, if_pos hshort]
  dsimp only
  rw [List.drop_zero, collectedTo, if_neg hne, hnone,
    textLines_completePart, List.nil_append, Nat.zero_add, Nat.zero_add]

-- ── the loop over the sources ─────────────────────────────────────────────────

/-- The body of the loop over the sources. -/
theorem ingestSource_view (minTsNanos : Option Int) (sizes : Nat → Nat) {stored : IngestCursor}
    (file : Option (List UInt8)) {st : IngestState ix} {batch : IngestBatch} (hok : PendingOk batch)
    (hnew : sourceKey source ∉ updateKeys batch)
    (hstored : (viewOf ix st batch source).cursor = stored) :
    let after := ingestSource ix fmt source minTsNanos sizes stored file st batch
    viewOf ix after.1 after.2 source
        = sourceAfter fmt minTsNanos source file (viewOf ix st batch source)
      ∧ (∀ t, sourceKey t ≠ sourceKey source → viewOf ix after.1 after.2 t = viewOf ix st batch t)
      ∧ PendingOk after.2
      ∧ ∀ k ∈ updateKeys after.2, k ∈ updateKeys batch ∨ k = sourceKey source := by
  cases file with
  | none => exact ⟨rfl, fun _ _ => rfl, hok, fun _ hk => Or.inl hk⟩
  | some bytes =>
      rw [ingestSource, sourceAfter, hstored]
      by_cases heq : bytes.length = stored.offset
      · rw [if_pos heq]
        refine ⟨?_, fun _ _ => rfl, hok, fun _ hk => Or.inl hk⟩
        have hnil : completePart newline (bytes.drop stored.offset) = [] := by
          rw [← heq, List.drop_length]; rfl
        dsimp only
        rw [startCursor, if_neg (by omega), hnil, collectedTo, if_pos rfl]
      · rw [if_neg heq, ← startCursor]
        have hreading : Collected ix fmt source minTsNanos (startCursor bytes.length stored)
            (fun t => viewOf ix st batch t) (updateKeys batch)
            (bytes.drop (startCursor bytes.length stored).offset) []
            ⟨bytes.drop (startCursor bytes.length stored).offset, [], startCursor bytes.length stored,
              some (startCursor bytes.length stored).nextSeq, batch, st⟩ :=
          ⟨rfl, rfl, List.not_mem_nil, rfl, (if_pos rfl).symm, fun _ _ => rfl,
            fun _ => ⟨rfl, hnew⟩, fun h => absurd rfl h, fun _ hk => Or.inl hk, hok⟩
        have hdone := readLoop_collects sizes _ 0 _ _ (Nat.le_refl _) hreading
        exact ⟨hdone.own, hdone.others, hdone.ok, hdone.keys⟩

theorem foldl_ingestSource_view (minTsNanos : Option Int) (sizes : LogSource → Nat → Nat)
    (files : BTreeMap (List UInt8)) (stored : LogSource → IngestCursor) :
    ∀ (sources : List LogSource) (st : IngestState ix) (batch : IngestBatch), PendingOk batch →
      (sources.map sourceKey).Nodup →
      (∀ s ∈ sources, sourceKey s ∉ updateKeys batch
        ∧ (viewOf ix st batch s).cursor = stored s) →
      let swept := sources.foldl (fun acc s =>
        ingestSource ix fmt s minTsNanos (sizes s) (stored s) files[s.path]? acc.1 acc.2) (st, batch)
      (∀ s ∈ sources, viewOf ix swept.1 swept.2 s
          = sourceAfter fmt minTsNanos s files[s.path]? (viewOf ix st batch s))
        ∧ (∀ s : LogSource, sourceKey s ∉ sources.map sourceKey →
            viewOf ix swept.1 swept.2 s = viewOf ix st batch s)
        ∧ PendingOk swept.2 := by
  intro sources
  induction sources with
  | nil =>
      intro st batch hok _ _
      exact ⟨fun _ hs => (nomatch hs), fun _ _ => rfl, hok⟩
  | cons s sources ih =>
      intro st batch hok hnodup hready
      obtain ⟨hs, hnodup⟩ := List.nodup_cons.mp hnodup
      obtain ⟨hnew, hstored⟩ := hready s List.mem_cons_self
      obtain ⟨hown, hothers, hok', hkeys⟩ := ingestSource_view ix fmt s minTsNanos (sizes s)
        files[s.path]? hok hnew hstored
      intro swept
      have hfold : swept = sources.foldl (fun acc s =>
          ingestSource ix fmt s minTsNanos (sizes s) (stored s) files[s.path]? acc.1 acc.2)
        (ingestSource ix fmt s minTsNanos (sizes s) (stored s) files[s.path]? st batch) := rfl
      rw [hfold]
      generalize ingestSource ix fmt s minTsNanos (sizes s) (stored s) files[s.path]? st batch = next
        at hown hothers hok' hkeys
      have hne : ∀ t ∈ sources, sourceKey t ≠ sourceKey s :=
        fun t ht he => hs (List.mem_map.mpr ⟨t, ht, he⟩)
      obtain ⟨hall, hrest, hok''⟩ := ih next.1 next.2 hok' hnodup (by
        intro t ht
        obtain ⟨htnew, htstored⟩ := hready t (List.mem_cons_of_mem s ht)
        refine ⟨fun hmem => ?_, ?_⟩
        · rcases hkeys _ hmem with h | h
          · exact htnew h
          · exact hne t ht h
        · rw [hothers t (hne t ht)]
          exact htstored)
      refine ⟨fun t ht => ?_, fun t ht => ?_, hok''⟩
      · rcases List.mem_cons.mp ht with rfl | ht
        · rw [hrest t hs, hown]
        · rw [hall t ht, hothers t (hne t ht)]
      · rw [List.map_cons, List.mem_cons, not_or] at ht
        rw [hrest t ht.2, hothers t ht.1]

/-- **WHAT AN INGEST DOES**, source by source. -/
theorem ingestSourcesAfter_sourceIndex (minTsNanos : Option Int) (sizes : LogSource → Nat → Nat)
    (files : BTreeMap (List UInt8)) {sources : List LogSource}
    (hnodup : (sources.map sourceKey).Nodup) (st : IngestState ix) :
    let after := ingestSourcesAfter ix fmt minTsNanos sizes files sources st
    (∀ s ∈ sources, sourceIndex ix after s
        = sourceAfter fmt minTsNanos s files[s.path]? (sourceIndex ix st s))
      ∧ (∀ s : LogSource, sourceKey s ∉ sources.map sourceKey →
          sourceIndex ix after s = sourceIndex ix st s) := by
  intro after
  by_cases hnil : sources = []
  · subst hnil
    exact ⟨fun _ hs => (nomatch hs), fun _ _ => rfl⟩
  · obtain ⟨hall, hrest, hok⟩ := foldl_ingestSource_view ix fmt minTsNanos sizes files
      (storedCursor st.cursors) sources st .empty pendingOk_empty hnodup
      (fun s _ => ⟨fun hk => (nomatch hk), rfl⟩)
    have hafter : after = _ := if_neg hnil
    rw [hafter]
    refine ⟨fun s hs => ?_, fun s hs => ?_⟩
    · rw [commit_sourceIndex ix _ hok, hall s hs, viewOf_empty]
    · rw [commit_sourceIndex ix _ hok, hrest s hs, viewOf_empty]

/-- The bytes of a source's file. -/
def fileBytes (files : BTreeMap (List UInt8)) (source : LogSource) : List UInt8 :=
  files[source.path]?.getD []

/-! ## Of which sources an ingest leaves something -/

section Within

variable {ix fmt source} {D : PendingDoc → Prop} {K : String → Prop}
variable {st : IngestState ix} {batch : IngestBatch}

/-- Documents and cursors that are indexed, or will be by a commit of the batch, are of
    certain sources only. -/
structure Within (D : PendingDoc → Prop) (K : String → Prop) (st : IngestState ix)
    (batch : IngestBatch) : Prop where
  docs : ∀ doc ∈ ix.docs st.index, D doc
  cursors : ∀ key ∈ st.cursors, K key
  pendingDocs : ∀ doc ∈ batch.pendingDocs, D doc
  keys : ∀ key ∈ updateKeys batch, K key

/-- The source is one of them. -/
def Covered (D : PendingDoc → Prop) (K : String → Prop) (source : LogSource) : Prop :=
  (∀ doc, doc.runId = source.runId → doc.service = source.service → D doc) ∧ K (sourceKey source)

theorem Within.recorded (h : Within D K st batch) (hcovered : Covered D K source)
    {cursor : IngestCursor} {deleteFromSeq : Option Nat} {new : List PendingDoc}
    {batch' : IngestBatch} (hrecorded : Recorded source cursor deleteFromSeq new batch batch') :
    Within D K st batch' := by
  refine ⟨h.docs, h.cursors, fun doc hdoc => ?_, fun key hkey => ?_⟩
  · rw [hrecorded.docs] at hdoc
    rcases List.mem_append.mp hdoc with hdoc | hdoc
    · exact h.pendingDocs doc hdoc
    · obtain ⟨hrun, hservice⟩ := hrecorded.own doc hdoc
      exact hcovered.1 doc hrun hservice
  · rcases hrecorded.mem_keys.mp hkey with hkey | rfl
    · exact h.keys key hkey
    · exact hcovered.2

theorem Within.commit (h : Within D K st batch) :
    Within D K (commitIngestBatch ix st batch).1 (commitIngestBatch ix st batch).2 := by
  rw [commitIngestBatch]
  split
  · exact h
  · refine ⟨fun doc hdoc => ?_, fun key hkey => ?_, fun _ hdoc => (nomatch hdoc),
      fun _ hkey => (nomatch hkey)⟩
    · rw [ix.docs_commit, List.mem_append] at hdoc
      exact hdoc.elim (fun hdoc => h.docs doc (List.mem_of_mem_filter hdoc)) (h.pendingDocs doc)
    · by_contra hnot
      have hold : st.cursors[key]? = none :=
        Std.ExtTreeMap.getElem?_eq_none fun hmem => hnot (h.cursors key hmem)
      have hnew := applyUpdates_of_not_mem st.cursors (fun hmem => hnot (h.keys key hmem))
      rw [← Std.ExtTreeMap.isSome_getElem?_iff_mem] at hkey
      rw [show (applyUpdates st.cursors batch.pendingUpdates)[key]? = none from hnew.trans hold] at hkey
      exact nomatch hkey

theorem Within.readChunk (minTsNanos : Option Int) (size : Nat) {loop : ReadLoop ix}
    (h : Within D K loop.st loop.batch) (hcovered : Covered D K source) :
    let next := readChunk ix fmt source minTsNanos size loop
    Within D K next.st next.batch := by
  intro next
  by_cases hnone : completePart newline (loop.carry ++ loop.remaining.take size) = []
  · have hnext : next = _ := if_pos hnone
    rw [hnext]
    exact h
  · have hnext : next = _ := if_neg hnone
    rw [hnext]
    dsimp only
    obtain ⟨hcur, hupd, hdocs⟩ := collectCompleteLines_after fmt source minTsNanos loop.cursor
      loop.deleteFromSeq (rest_completePart newline _) hnone loop.batch
    generalize collectCompleteLines fmt source minTsNanos loop.cursor loop.deleteFromSeq
      _ loop.batch = collected at hcur hupd hdocs ⊢
    have hcollected : Within D K loop.st collected.2 := by
      refine h.recorded hcovered ⟨hupd, hdocs, fun doc hdoc => ?_⟩
      obtain ⟨hrun, hservice, -⟩ := kept_docsFrom_mem fmt hdoc
      exact ⟨hrun, hservice⟩
    have hflush : ∀ batch : IngestBatch, Within D K loop.st batch →
        let committed :=
          if batch.shouldFlush then commitIngestBatch ix loop.st batch else (loop.st, batch)
        Within D K committed.1 committed.2 := by
      intro batch hbatch
      dsimp only
      split
      · exact hbatch.commit
      · exact hbatch
    have hadvanced : ∀ cursor : IngestCursor, Recorded source cursor none [] collected.2
        { collected.2 with
          pendingUpdates := recordUpdate collected.2.pendingUpdates
            ⟨sourceKey source, cursor, source.runId, source.service, none⟩ } :=
      fun cursor => ⟨rfl, (List.append_nil _).symm, fun _ hdoc => (nomatch hdoc)⟩
    split
    · exact hflush _ (hcollected.recorded hcovered (hadvanced _))
    · exact hflush _ hcollected

theorem Within.readLoop (minTsNanos : Option Int) (sizes : Nat → Nat)
    (hcovered : Covered D K source) : ∀ (fuel i : Nat) (loop : ReadLoop ix),
      Within D K loop.st loop.batch →
        let after := readLoop ix fmt source minTsNanos sizes fuel i loop
        Within D K after.st after.batch := by
  intro fuel
  induction fuel with
  | zero => exact fun _ _ h => h
  | succ fuel ih =>
      intro i loop h
      rw [DevstackIngest.readLoop]
      split
      · exact h
      · exact ih (i + 1) _ (h.readChunk minTsNanos _ hcovered)

theorem Within.ingestSource (minTsNanos : Option Int) (sizes : Nat → Nat) (stored : IngestCursor)
    (file : Option (List UInt8)) (h : Within D K st batch) (hcovered : Covered D K source) :
    let after := ingestSource ix fmt source minTsNanos sizes stored file st batch
    Within D K after.1 after.2 := by
  intro after
  cases file with
  | none => exact h
  | some bytes =>
      by_cases heq : bytes.length = stored.offset
      · have hafter : after = (st, batch) := if_pos heq
        rw [hafter]
        exact h
      · have hafter : after = _ := if_neg heq
        rw [hafter]
        exact Within.readLoop minTsNanos sizes hcovered _ 0 _ h

/-- **AN INGEST ADDS TO ITS SOURCES ONLY**, also if two of them have one key. -/
theorem ingestSourcesAfter_within (ix : SearchIndex) (fmt : LineFormat) (minTsNanos : Option Int)
    (sizes : LogSource → Nat → Nat) (files : BTreeMap (List UInt8)) {sources : List LogSource}
    {st : IngestState ix} (hdocs : ∀ doc ∈ ix.docs st.index, D doc)
    (hcursors : ∀ key ∈ st.cursors, K key) (hcovered : ∀ s ∈ sources, Covered D K s) :
    let after := ingestSourcesAfter ix fmt minTsNanos sizes files sources st
    (∀ doc ∈ ix.docs after.index, D doc) ∧ ∀ key ∈ after.cursors, K key := by
  intro after
  by_cases hnil : sources = []
  · have hafter : after = st := if_pos hnil
    rw [hafter]
    exact ⟨hdocs, hcursors⟩
  · have hfold : ∀ (rest : List LogSource) (acc : IngestState ix × IngestBatch),
        (∀ s ∈ rest, Covered D K s) → Within D K acc.1 acc.2 →
          let swept := rest.foldl (fun acc source =>
            ingestSource ix fmt source minTsNanos (sizes source) (storedCursor st.cursors source)
              files[source.path]? acc.1 acc.2) acc
          Within D K swept.1 swept.2 := by
      intro rest
      induction rest with
      | nil => exact fun _ _ h => h
      | cons s rest ih =>
          intro acc hrest h
          refine ih _ (fun t ht => hrest t (List.mem_cons_of_mem s ht)) ?_
          exact h.ingestSource minTsNanos _ _ _ (hrest s List.mem_cons_self)
    have hafter : after = _ := if_neg hnil
    rw [hafter]
    have hstart : Within D K st IngestBatch.empty :=
      ⟨hdocs, hcursors, fun _ hdoc => (nomatch hdoc), fun _ hkey => (nomatch hkey)⟩
    have hdone := (hfold sources (st, .empty) hcovered hstart).commit
    exact ⟨hdone.docs, hdone.cursors⟩

end Within
/-! ## Runs of appends and ingests -/

/-- The log sources that are ever ingested; `validate_name_for_path_component`
    keeps `/` out of run ids and services, so their keys differ. -/
structure Catalogue where
  sources : List LogSource
  keys : (sources.map sourceKey).Nodup

/-- The log files and the index. -/
structure World where
  files : BTreeMap (List UInt8)
  st : IngestState ix

/-- The world before the first ingest. -/
def World.start (files : BTreeMap (List UInt8)) : World ix := ⟨files, ⟨ix.empty, ∅⟩⟩

inductive Action where
  /-- A writer appends to a file. -/
  | append (path : String) (bytes : List UInt8)
  /-- An ingest of some of the sources; `sizes` are the sizes its reads give. -/
  | ingest (chosen : LogSource → Bool) (sizes : LogSource → Nat → Nat)

variable (cat : Catalogue)

/-- The sources an action ingests. -/
def ingested : Action → List LogSource
  | .append _ _ => []
  | .ingest chosen _ => cat.sources.filter chosen

def step (w : World ix) : Action → World ix
  | .append path bytes =>
      { w with files := w.files.insert path (w.files[path]?.getD [] ++ bytes) }
  | .ingest chosen sizes =>
      { w with
        st := ingestSourcesAfter ix fmt none sizes w.files (cat.sources.filter chosen) w.st }

section Runs

variable {ix}

/-- The documents are exactly the lines of the file, and the cursor stands after
    its last line break. -/
structure ExactlyOnce (w : World ix) (s : LogSource) : Prop where
  docs : docsOf (ix.docs w.st.index) s = docsFrom fmt s 0 (textLines (fileBytes w.files s))
  cursor : storedCursor w.st.cursors s
    = ⟨(completePart newline (fileBytes w.files s)).length,
        (textLines (fileBytes w.files s)).length⟩

/-- The same of a part `done` of the file that ends with a line break: what an
    ingest left, with the bytes appended since after it. -/
structure SyncedTo (w : World ix) (s : LogSource) (done : List UInt8) : Prop where
  before : done <+: fileBytes w.files s
  finished : rest newline done = []
  docs : docsOf (ix.docs w.st.index) s = docsFrom fmt s 0 (textLines done)
  cursor : storedCursor w.st.cursors s = ⟨done.length, (textLines done).length⟩

def Synced (w : World ix) : Prop := ∀ s ∈ cat.sources, ∃ done, SyncedTo fmt w s done

/-- What an ingest needs of a source: every ill-formed sequence in the finished
    lines after its cursor is three bytes long. -/
def LengthKept (w : World ix) (s : LogSource) : Prop :=
  ThreeByteBroken (completePart newline
    ((fileBytes w.files s).drop (storedCursor w.st.cursors s).offset))

theorem synced_start (files : BTreeMap (List UInt8)) :
    Synced fmt cat (World.start ix files) := by
  intro s _
  refine ⟨[], List.nil_prefix, rfl, ?_, ?_⟩
  · show (ix.docs ix.empty).filter _ = []
    rw [ix.docs_empty]; rfl
  · show ((∅ : BTreeMap IngestCursor)[sourceKey s]?).getD .default = _
    simp [IngestCursor.default]; rfl

variable {fmt cat}

theorem ExactlyOnce.synced {w : World ix} {s : LogSource} (h : ExactlyOnce fmt w s) :
    SyncedTo fmt w s (completePart newline (fileBytes w.files s)) where
  before := ⟨openPart newline _, completePart_append_openPart newline _⟩
  finished := rest_completePart newline _
  docs := by rw [textLines_completePart]; exact h.docs
  cursor := by rw [textLines_completePart]; exact h.cursor

/-- What an ingest does to a synced source: documents for the lines of the new part,
    and the cursor moved by its decoded length. -/
theorem SyncedTo.sourceAfter {w : World ix} {s : LogSource} {done : List UInt8}
    (h : SyncedTo fmt w s done) :
    let new := (fileBytes w.files s).drop done.length
    sourceAfter fmt none s w.files[s.path]? (sourceIndex ix w.st s)
      = ⟨docsFrom fmt s 0 (textLines (fileBytes w.files s)),
          ⟨done.length + strLen (scan (completePart newline new)),
            (textLines (fileBytes w.files s)).length⟩⟩ := by
  intro new
  have hbefore : sourceIndex ix w.st s = indexed fmt s done := by
    rw [sourceIndex, h.docs, h.cursor, indexed]
  cases hfile : w.files[s.path]? with
  | none =>
      have hnil : fileBytes w.files s = [] := by rw [fileBytes, hfile]; rfl
      obtain rfl : done = [] := List.prefix_nil.mp (hnil ▸ h.before)
      rw [hbefore, show new = [] from hnil]
      rw [hnil]
      rfl
  | some bytes =>
      have hbytes : fileBytes w.files s = bytes := by rw [fileBytes, hfile]; rfl
      have hbase := h.before
      rw [hbytes] at hbase
      rw [hbefore, sourceAfter_grown fmt h.finished hbase, show new = bytes.drop done.length from
        congrArg (List.drop done.length) hbytes, hbytes]

theorem fileBytes_append (files : BTreeMap (List UInt8)) (s : LogSource) (path : String)
    (bytes : List UInt8) :
    fileBytes (files.insert path (files[path]?.getD [] ++ bytes)) s
      = if path = s.path then fileBytes files s ++ bytes else fileBytes files s := by
  by_cases hp : path = s.path
  · subst hp
    simp [fileBytes]
  · simp [Std.ExtTreeMap.getElem?_insert, hp, fileBytes]

/-- Logs only grow. -/
theorem fileBytes_step (w : World ix) (a : Action) (s : LogSource) :
    fileBytes w.files s <+: fileBytes (step ix fmt cat w a).files s := by
  cases a with
  | append path bytes =>
      rw [step, fileBytes_append]
      split
      · exact List.prefix_append _ _
      · exact List.prefix_rfl
  | ingest chosen sizes => exact List.prefix_rfl

theorem SyncedTo.append {w : World ix} {s : LogSource} {done : List UInt8}
    (h : SyncedTo fmt w s done) (path : String) (bytes : List UInt8) :
    SyncedTo fmt (step ix fmt cat w (.append path bytes)) s done :=
  ⟨h.before.trans (fileBytes_step w (.append path bytes) s), h.finished, h.docs, h.cursor⟩

/-- An append leaves every source synced. -/
theorem synced_append {w : World ix} (h : Synced fmt cat w) (path : String)
    (bytes : List UInt8) : Synced fmt cat (step ix fmt cat w (.append path bytes)) := by
  intro s hs
  obtain ⟨done, hd⟩ := h s hs
  exact ⟨done, hd.append path bytes⟩

/-- The sources of an ingest have different keys. -/
theorem chosen_keys (chosen : LogSource → Bool) :
    ((cat.sources.filter chosen).map sourceKey).Nodup :=
  cat.keys.sublist (List.filter_sublist.map sourceKey)

/-- A source that is not chosen has a key of its own. -/
theorem not_chosen_key {chosen : LogSource → Bool} {s : LogSource} (hs : s ∈ cat.sources)
    (hnot : ¬ chosen s = true) : sourceKey s ∉ (cat.sources.filter chosen).map sourceKey := by
  intro hmem
  obtain ⟨t, ht, he⟩ := List.mem_map.mp hmem
  obtain ⟨htmem, htc⟩ := List.mem_filter.mp ht
  rw [List.inj_on_of_nodup_map cat.keys htmem hs he] at htc
  exact hnot htc

/-- After an ingest the documents of a source are the lines of its file; the
    cursor has counted the lines, and has moved by the decoded length. -/
theorem ingest_source {w : World ix} {chosen : LogSource → Bool}
    (sizes : LogSource → Nat → Nat) {s : LogSource} (hs : s ∈ cat.sources.filter chosen)
    {done : List UInt8} (hd : SyncedTo fmt w s done) :
    let after := step ix fmt cat w (.ingest chosen sizes)
    let new := (fileBytes w.files s).drop done.length
    docsOf (ix.docs after.st.index) s = docsFrom fmt s 0 (textLines (fileBytes w.files s))
      ∧ storedCursor after.st.cursors s
          = ⟨done.length + strLen (scan (completePart newline new)),
              (textLines (fileBytes w.files s)).length⟩ := by
  intro after new
  have hafter := (ingestSourcesAfter_sourceIndex ix fmt none sizes w.files (chosen_keys chosen)
    w.st).1 s hs
  rw [hd.sourceAfter] at hafter
  exact ⟨congrArg SourceIndex.docs hafter, congrArg SourceIndex.cursor hafter⟩

/-- An ingest of other sources leaves a source as it was. -/
theorem SyncedTo.elsewhere {w : World ix} {s : LogSource} {done : List UInt8}
    (h : SyncedTo fmt w s done) {chosen : LogSource → Bool} (sizes : LogSource → Nat → Nat)
    (hs : s ∈ cat.sources) (hnot : ¬ chosen s = true) :
    SyncedTo fmt (step ix fmt cat w (.ingest chosen sizes)) s done := by
  have hsame := (ingestSourcesAfter_sourceIndex ix fmt none sizes w.files (chosen_keys chosen)
    w.st).2 s (not_chosen_key hs hnot)
  exact ⟨h.before, h.finished, (congrArg SourceIndex.docs hsame).trans h.docs,
    (congrArg SourceIndex.cursor hsame).trans h.cursor⟩

/-- **ONE INGEST**: it is exactly-once for a synced source if and only if
    decoding keeps the length of what it reads. -/
theorem exactlyOnce_ingest {w : World ix} (h : Synced fmt cat w) {chosen : LogSource → Bool}
    (sizes : LogSource → Nat → Nat) {s : LogSource} (hs : s ∈ cat.sources.filter chosen) :
    ExactlyOnce fmt (step ix fmt cat w (.ingest chosen sizes)) s ↔ LengthKept w s := by
  obtain ⟨done, hd⟩ := h s (List.mem_of_mem_filter hs)
  obtain ⟨hdocs, hcursor⟩ := ingest_source sizes hs hd
  obtain ⟨new, hnew⟩ := hd.before
  have hlen : (completePart newline (fileBytes w.files s)).length
      = done.length + (completePart newline new).length := by
    rw [← hnew, completePart_append newline hd.finished, List.length_append]
  have hdrop : (fileBytes w.files s).drop done.length = new := by
    rw [← hnew, List.drop_left]
  rw [hdrop] at hcursor
  have hkept : LengthKept w s ↔ strLen (scan (completePart newline new))
      = (completePart newline new).length := by
    rw [LengthKept, hd.cursor, strLen_scan_eq]
    show ThreeByteBroken (completePart newline ((fileBytes w.files s).drop done.length)) ↔ _
    rw [hdrop]
  rw [hkept]
  constructor
  · intro hex
    have hoff := congrArg IngestCursor.offset (hcursor.symm.trans hex.cursor)
    show strLen _ = _
    have heq : done.length + strLen (scan (completePart newline new))
        = (completePart newline (fileBytes w.files s)).length := hoff
    omega
  · intro heq
    refine ⟨hdocs, hcursor.trans ?_⟩
    show (⟨_, _⟩ : IngestCursor) = ⟨(completePart newline (fileBytes w.files s)).length, _⟩
    rw [hlen, heq]; rfl

/-- A step whose ingests are exactly-once leaves every source synced. -/
theorem synced_step {w : World ix} (h : Synced fmt cat w) (a : Action)
    (hok : ∀ s ∈ ingested cat a, ExactlyOnce fmt (step ix fmt cat w a) s) :
    Synced fmt cat (step ix fmt cat w a) := by
  cases a with
  | append path bytes => exact synced_append h path bytes
  | ingest chosen sizes =>
      intro s hs
      by_cases hc : chosen s = true
      · exact ⟨_, (hok s (List.mem_filter.mpr ⟨hs, hc⟩)).synced⟩
      · obtain ⟨done, hd⟩ := h s hs
        exact ⟨done, hd.elsewhere sizes hs hc⟩

/-- A log of valid UTF-8 is indexed to its last line break. -/
theorem SyncedTo.ingest {w : World ix} {s : LogSource} {done : List UInt8}
    (h : SyncedTo fmt w s done) {chosen : LogSource → Bool} (sizes : LogSource → Nat → Nat)
    (hs : s ∈ cat.sources.filter chosen)
    (hutf8 : isUtf8 (completePart newline (fileBytes w.files s)) = true) :
    SyncedTo fmt (step ix fmt cat w (.ingest chosen sizes)) s
      (completePart newline (fileBytes w.files s)) := by
  obtain ⟨hdocs, hcursor⟩ := ingest_source sizes hs h
  obtain ⟨new, hnew⟩ := h.before
  rw [← hnew, List.drop_left] at hcursor
  rw [← hnew, completePart_append newline h.finished, isUtf8_append_finished h.finished,
    Bool.and_eq_true] at hutf8
  rw [strLen_of_isUtf8 hutf8.2, ← List.length_append, ← completePart_append newline h.finished,
    hnew] at hcursor
  exact ExactlyOnce.synced ⟨hdocs, hcursor⟩

theorem SyncedTo.step {w : World ix} {s : LogSource} {done : List UInt8}
    (h : SyncedTo fmt w s done) (hs : s ∈ cat.sources) (a : Action)
    (hutf8 : isUtf8 (completePart newline (fileBytes w.files s)) = true) :
    ∃ done', done <+: done' ∧ SyncedTo fmt (step ix fmt cat w a) s done' := by
  cases a with
  | append path bytes => exact ⟨done, List.prefix_rfl, h.append path bytes⟩
  | ingest chosen sizes =>
      by_cases hc : chosen s = true
      · obtain ⟨new, hnew⟩ := h.before
        refine ⟨_, ?_, h.ingest sizes (List.mem_filter.mpr ⟨hs, hc⟩) hutf8⟩
        rw [← hnew, completePart_append newline h.finished]
        exact List.prefix_append _ _
      · exact ⟨done, List.prefix_rfl, h.elsewhere sizes hs hc⟩

theorem fileBytes_run (actions : List Action) (w : World ix) (s : LogSource) :
    fileBytes w.files s <+: fileBytes (run (step ix fmt cat) w actions).files s := by
  induction actions generalizing w with
  | nil => exact List.prefix_rfl
  | cons a actions ih => exact (fileBytes_step w a s).trans (ih _)

/-- In a run on a log of valid UTF-8 its source is synced. -/
theorem synced_utf8 {files : BTreeMap (List UInt8)} {s : LogSource} (hs : s ∈ cat.sources)
    (actions : List Action)
    (hutf8 : isUtf8 (completePart newline
      (fileBytes (run (step ix fmt cat) (World.start ix files) actions).files s)) = true) :
    ∃ done, SyncedTo fmt (run (step ix fmt cat) (World.start ix files) actions) s done := by
  have hrun : ∀ (actions : List Action) (w : World ix), (∃ done, SyncedTo fmt w s done) →
      isUtf8 (completePart newline (fileBytes (run (step ix fmt cat) w actions).files s)) = true →
        ∃ done, SyncedTo fmt (run (step ix fmt cat) w actions) s done := by
    intro actions
    induction actions with
    | nil => exact fun w h _ => h
    | cons a actions ih =>
        rintro w ⟨done, hdone⟩ hutf8
        have hnow := isUtf8_of_initial (@fileBytes_run ix fmt cat (a :: actions) w s) hutf8
        obtain ⟨done', -, hdone'⟩ := hdone.step hs a hnow
        exact ih _ ⟨done', hdone'⟩ hutf8
  exact hrun actions _ (synced_start fmt cat files s hs) hutf8

/-- **INGEST IS EXACTLY-ONCE** along a run of appends and ingests if and only if,
    at every ingest, every ill-formed sequence in the finished lines after the
    cursor of each ingested source is three bytes long. -/
theorem ingest_exactly_once_iff (ix : SearchIndex) (fmt : LineFormat) (cat : Catalogue)
    (files : BTreeMap (List UInt8)) (actions : List Action) :
    Along (step ix fmt cat)
        (fun w a => ∀ s ∈ ingested cat a, ExactlyOnce fmt (step ix fmt cat w a) s)
        (World.start ix files) actions
      ↔ Along (step ix fmt cat) (fun w a => ∀ s ∈ ingested cat a, LengthKept w s)
        (World.start ix files) actions := by
  have hiff : ∀ (w : World ix) (a : Action), Synced fmt cat w →
      ((∀ s ∈ ingested cat a, ExactlyOnce fmt (step ix fmt cat w a) s)
        ↔ ∀ s ∈ ingested cat a, LengthKept w s) := by
    intro w a hw
    cases a with
    | append path bytes => exact ⟨fun _ _ hs => (nomatch hs), fun _ _ hs => (nomatch hs)⟩
    | ingest chosen sizes =>
        exact forall₂_congr (fun s hs => exactlyOnce_ingest hw sizes hs)
  have hstep : ∀ (w : World ix) (a : Action), Synced fmt cat w →
      (∀ s ∈ ingested cat a, ExactlyOnce fmt (step ix fmt cat w a) s) →
        Synced fmt cat (step ix fmt cat w a) :=
    fun w a hw hok => synced_step hw a hok
  exact along_congr (step ix fmt cat) hiff hstep actions _ (synced_start fmt cat files)

end Runs

/-! ## A byte that is no UTF-8 -/

/-- The committed documents as a list. -/
def listIndex : SearchIndex where
  Index := List PendingDoc
  empty := []
  docs := id
  commit index deleted added := index.filter (fun d => !deleted d) ++ added
  docs_empty := rfl
  docs_commit _ _ _ := rfl

/-- Plain text lines. -/
def plainFormat : LineFormat where
  parse line := ⟨"stdout", "info", line, none, []⟩
  timestampNanos _ := none

def webSource : LogSource := ⟨"r1", "web", "/logs/web.log"⟩

def webCatalogue : Catalogue := ⟨[webSource], by decide⟩

/-- The line `a\xFF`: three bytes with its line break, five once decoded, and
    the cursor stands past the end of the file. -/
theorem ingest_invalid_byte :
    ¬ ExactlyOnce plainFormat
        (run (step listIndex plainFormat webCatalogue) (World.start listIndex ∅)
          [.append "/logs/web.log" [0x61, 0xFF, 0x0A], .ingest (fun _ => true) (fun _ _ => 3)])
        webSource := by
  intro h
  have hcursor := h.cursor
  revert hcursor
  decide

end DevstackIngestExact
