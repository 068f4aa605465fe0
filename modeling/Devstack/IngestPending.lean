import Devstack.IngestFaults

/-! # One source in the middle of an ingest

    One source `s` is followed through a call that may stop before any of its
    steps.  The index holds the documents of a part `base` of its file below the
    number of that part's lines; whatever is there beyond, committed or queued,
    is numbered from there on (`Holds`).  That is what the cursor in the process
    and the one in the file need to be true (`Sound`).

    The pending batch has what follows `base` up to `view` (`Progress`): the
    first update of the source in a call deletes what lies beyond `base`, so the
    commit of the batch leaves exactly `view` (`Progress.flush`). -/

namespace DevstackIngestPending

open DevstackModel DevstackLines DevstackLossyUtf8 DevstackFaults DevstackIngestFaults
open DevstackIngest hiding commitIngestBatch readChunk readLoop ingestSource ingestSourcesAfter
open DevstackIngestExact hiding World World.start Action step

/-! ## Documents below a number -/

def below (n : Nat) (docs : List PendingDoc) : List PendingDoc :=
  docs.filter (fun d => decide (d.seq < n))

theorem below_append (n : Nat) (docs docs' : List PendingDoc) :
    below n (docs ++ docs') = below n docs ++ below n docs' := List.filter_append ..

theorem below_eq_self {n : Nat} {docs : List PendingDoc} (h : ∀ d ∈ docs, d.seq < n) :
    below n docs = docs :=
  List.filter_eq_self.mpr (fun d hd => decide_eq_true (h d hd))

theorem below_eq_nil {n : Nat} {docs : List PendingDoc} (h : ∀ d ∈ docs, n ≤ d.seq) :
    below n docs = [] :=
  List.filter_eq_nil_iff.mpr (fun d hd => by simpa using h d hd)

theorem below_below {n m : Nat} (h : n ≤ m) (docs : List PendingDoc) :
    below n (below m docs) = below n docs := by
  rw [below, below, below, List.filter_filter]
  refine List.filter_congr ?_
  intro d _
  by_cases hd : d.seq < n
  · simp [hd, Nat.lt_of_lt_of_le hd h]
  · simp [hd]

section Source

variable (fmt : LineFormat) (minTsNanos : Option Int) (s : LogSource)

/-- The documents of the lines of `done`, and the cursor behind it. -/
def docsAt (done : List UInt8) : List PendingDoc :=
  kept minTsNanos (docsFrom fmt s 0 (textLines done))

def cursorAt (done : List UInt8) : IngestCursor := ⟨done.length, (textLines done).length⟩

/-- The documents between two parts of a file. -/
def docsBetween (done done' : List UInt8) : List PendingDoc :=
  kept minTsNanos
    (docsFrom fmt s (textLines done).length (textLines (done'.drop done.length)))

variable {fmt minTsNanos s}

theorem mem_docsBetween {done done' : List UInt8} {d : PendingDoc}
    (h : d ∈ docsBetween fmt minTsNanos s done done') :
    d.runId = s.runId ∧ d.service = s.service ∧ (textLines done).length ≤ d.seq
      ∧ d.seq < (textLines done).length + (textLines (done'.drop done.length)).length := by
  have hmem := List.mem_of_mem_filter h
  obtain ⟨hrun, hservice, hlt⟩ := docsFrom_mem fmt s hmem
  exact ⟨hrun, hservice, docsFrom_ge hmem, hlt⟩

theorem mem_docsAt {done : List UInt8} {d : PendingDoc} (h : d ∈ docsAt fmt minTsNanos s done) :
    d.runId = s.runId ∧ d.service = s.service ∧ d.seq < (textLines done).length := by
  have hmem := docsFrom_mem fmt s (List.mem_of_mem_filter h)
  rw [Nat.zero_add] at hmem
  exact hmem

theorem lines_grown {done done' : List UInt8} (hfin : rest newline done = [])
    (hgrown : done <+: done') :
    textLines done' = textLines done ++ textLines (done'.drop done.length) := by
  obtain ⟨new, rfl⟩ := hgrown
  rw [List.drop_left, textLines_append hfin]

theorem lines_grown_length {done done' : List UInt8} (hfin : rest newline done = [])
    (hgrown : done <+: done') :
    (textLines done').length
      = (textLines done).length + (textLines (done'.drop done.length)).length := by
  rw [lines_grown hfin hgrown, List.length_append]

/-- The documents of a longer part: those of the shorter one, and those between. -/
theorem docsAt_grown {done done' : List UInt8} (hfin : rest newline done = [])
    (hgrown : done <+: done') :
    docsAt fmt minTsNanos s done'
      = docsAt fmt minTsNanos s done ++ docsBetween fmt minTsNanos s done done' := by
  rw [docsAt, lines_grown hfin hgrown, docsFrom_append, kept_append, Nat.zero_add]
  rfl

/-- The documents of the shorter part are those numbered below its lines. -/
theorem below_docsAt {done done' : List UInt8} (hfin : rest newline done = [])
    (hgrown : done <+: done') :
    below (textLines done).length (docsAt fmt minTsNanos s done')
      = docsAt fmt minTsNanos s done := by
  rw [docsAt_grown hfin hgrown, below_append, below_eq_self (fun d hd => (mem_docsAt hd).2.2),
    below_eq_nil (fun d hd => (mem_docsBetween hd).2.2.1), List.append_nil]

/-! ## What the index holds of the source -/

/-- An operation on the source's documents touches those from `lo` on, and adds
    none from `hi` on. -/
def Beyond (s : LogSource) (lo hi : Nat) : WriterOp → Prop
  | .delete runId service fromSeq => runId = s.runId ∧ service = s.service → lo ≤ fromSeq
  | .add doc => doc.runId = s.runId ∧ doc.service = s.service → lo ≤ doc.seq ∧ doc.seq < hi

theorem Beyond.mono {lo lo' hi hi' : Nat} {op : WriterOp} (h : Beyond s lo hi op)
    (hlo : lo' ≤ lo) (hhi : hi ≤ hi') : Beyond s lo' hi' op := by
  cases op with
  | delete runId service fromSeq => exact fun hids => Nat.le_trans hlo (h hids)
  | add doc =>
      intro hids
      obtain ⟨hfrom, hto⟩ := h hids
      exact ⟨Nat.le_trans hlo hfrom, Nat.lt_of_lt_of_le hto hhi⟩

variable {ix : SearchIndex}

/-- Below `n` the index holds the documents `docs` of the source, and none from
    `hi` on; the queue leaves those below `n` alone. -/
structure Holds (s : LogSource) (st : Store ix) (n hi : Nat) (docs : List PendingDoc) : Prop where
  docs : below n (docsOf (ix.docs st.index) s) = docs
  bounded : ∀ d ∈ docsOf (ix.docs st.index) s, d.seq < hi
  queued : ∀ op ∈ st.queue, Beyond s n hi op

/-- When the bound is `n` too, the documents are exactly these. -/
theorem Holds.docsOf {st : Store ix} {n : Nat} {docs : List PendingDoc}
    (h : Holds s st n n docs) : docsOf (ix.docs st.index) s = docs := by
  rw [← h.docs, below_eq_self h.bounded]

theorem Holds.mono {st : Store ix} {n hi hi' : Nat} {docs : List PendingDoc}
    (h : Holds s st n hi docs) (hhi : hi ≤ hi') : Holds s st n hi' docs where
  docs := h.docs
  bounded := fun d hd => Nat.lt_of_lt_of_le (h.bounded d hd) hhi
  queued := fun op hop => (h.queued op hop).mono (Nat.le_refl n) hhi

theorem Holds.queue {st : Store ix} {n hi : Nat} {docs : List PendingDoc}
    (h : Holds s st n hi docs) {ops : List WriterOp} (hops : ∀ op ∈ ops, Beyond s n hi op) :
    Holds s { st with queue := st.queue ++ ops } n hi docs where
  docs := h.docs
  bounded := h.bounded
  queued := by
    intro op hop
    rcases List.mem_append.mp hop with hop | hop
    · exact h.queued op hop
    · exact hops op hop

theorem deleted_eq_true {queue : List WriterOp} {d : PendingDoc} :
    deleted queue d = true ↔ ∃ runId service fromSeq, .delete runId service fromSeq ∈ queue
      ∧ d.runId = runId ∧ d.service = service ∧ fromSeq ≤ d.seq := by
  rw [deleted, List.any_eq_true]
  constructor
  · rintro ⟨op, hop, hd⟩
    cases op with
    | delete runId service fromSeq =>
        simp only [WriterOp.deletes, Bool.and_eq_true, beq_iff_eq, decide_eq_true_eq] at hd
        exact ⟨runId, service, fromSeq, hop, hd.1.1, hd.1.2, hd.2⟩
    | add doc => cases hd
  · rintro ⟨runId, service, fromSeq, hop, hrun, hservice, hle⟩
    exact ⟨_, hop, by simp [WriterOp.deletes, hrun, hservice, hle]⟩

theorem mem_added {queue : List WriterOp} {d : PendingDoc} (h : d ∈ added queue) :
    .add d ∈ queue := by
  induction queue with
  | nil => exact nomatch h
  | cons op queue ih =>
      cases op with
      | delete runId service fromSeq => exact List.mem_cons_of_mem _ (ih h)
      | add doc =>
          rw [added] at h
          by_cases hgone : deleted queue doc = true
          · rw [if_pos hgone] at h
            exact List.mem_cons_of_mem _ (ih h)
          · rw [if_neg hgone] at h
            rcases List.mem_cons.mp h with rfl | h
            · exact List.mem_cons_self
            · exact List.mem_cons_of_mem _ (ih h)

theorem docs_commit (st : Store ix) :
    ix.docs st.commit.index
      = (ix.docs st.index).filter (fun d => !deleted st.queue d) ++ added st.queue :=
  ix.docs_commit ..

/-- A commit keeps it, whatever was queued. -/
theorem Holds.commit {st : Store ix} {n hi : Nat} {docs : List PendingDoc}
    (h : Holds s st n hi docs) : Holds s st.commit n hi docs := by
  have hadded : ∀ d ∈ DevstackIngestExact.docsOf (added st.queue) s, n ≤ d.seq ∧ d.seq < hi := by
    intro d hd
    obtain ⟨hmem, hids⟩ := mem_docsOf.mp hd
    exact h.queued _ (mem_added hmem) hids
  refine ⟨?_, ?_, fun op hop => nomatch hop⟩
  · rw [docs_commit, docsOf_append, below_append, below_eq_nil (fun d hd => (hadded d hd).1),
      List.append_nil, ← h.docs, below, below, DevstackIngestExact.docsOf,
      DevstackIngestExact.docsOf, List.filter_filter, List.filter_filter, List.filter_filter]
    refine List.filter_congr ?_
    intro d _
    by_cases hids : d.runId = s.runId ∧ d.service = s.service
    · by_cases hlt : d.seq < n
      · have hkeep : deleted st.queue d = false := by
          refine Bool.eq_false_iff.mpr ?_
          intro hgone
          obtain ⟨runId, service, fromSeq, hop, rfl, rfl, hle⟩ := deleted_eq_true.mp hgone
          have hfrom : n ≤ fromSeq := h.queued _ hop hids
          omega
        simp [hkeep]
      · simp [hlt]
    · have hother : (d.runId == s.runId && d.service == s.service) = false := by
        simpa using hids
      simp [hother]
  · intro d hd
    rw [docs_commit, docsOf_append] at hd
    rcases List.mem_append.mp hd with hd | hd
    · obtain ⟨hmem, hids⟩ := mem_docsOf.mp hd
      exact h.bounded d (mem_docsOf.mpr ⟨List.mem_of_mem_filter hmem, hids⟩)
    · exact (hadded d hd).2

/-! ## The pending batch -/

/-- An update belongs to the source under its key, or to another source. -/
def Owned (s : LogSource) (update : PendingUpdate) : Prop :=
  (update.key = sourceKey s ∧ update.runId = s.runId ∧ update.service = s.service)
    ∨ (update.key ≠ sourceKey s ∧ ¬ (update.runId = s.runId ∧ update.service = s.service))

theorem Owned.key {update : PendingUpdate} (h : Owned s update)
    (hids : update.runId = s.runId ∧ update.service = s.service) : update.key = sourceKey s := by
  rcases h with h | h
  · exact h.1
  · exact absurd hids h.2

theorem Owned.ids {update : PendingUpdate} (h : Owned s update)
    (hkey : update.key = sourceKey s) :
    update.runId = s.runId ∧ update.service = s.service := by
  rcases h with h | h
  · exact h.2
  · exact absurd hkey h.1

theorem deleteQuery_eq_true {updates : List PendingUpdate} {d : PendingDoc} :
    deleteQuery updates d = true ↔ ∃ update ∈ updates, ∃ fromSeq,
      update.deleteFromSeq = some fromSeq ∧ d.runId = update.runId ∧ d.service = update.service
        ∧ fromSeq ≤ d.seq := by
  rw [deleteQuery, List.any_eq_true]
  refine exists_congr (fun update => and_congr_right (fun _ => ?_))
  cases update.deleteFromSeq with
  | none => simp
  | some fromSeq => simp [and_assoc]

/-- With an update of the source, its marker says what is deleted. -/
theorem deleteQuery_of_mem {updates : List PendingUpdate} (hkeys : (updates.map (·.key)).Nodup)
    (howned : ∀ update ∈ updates, Owned s update) {update : PendingUpdate}
    (hmem : update ∈ updates) (hkey : update.key = sourceKey s) {d : PendingDoc}
    (hids : d.runId = s.runId ∧ d.service = s.service) :
    deleteQuery updates d = true ↔ ∃ fromSeq, update.deleteFromSeq = some fromSeq
      ∧ fromSeq ≤ d.seq := by
  rw [deleteQuery_eq_true]
  constructor
  · rintro ⟨update', hmem', fromSeq, hfrom, hrun, hservice, hle⟩
    have hkey' := (howned update' hmem').key ⟨hrun.symm.trans hids.1, hservice.symm.trans hids.2⟩
    have hsame : update' = update :=
      List.inj_on_of_nodup_map hkeys hmem' hmem (hkey'.trans hkey.symm)
    rw [hsame] at hfrom
    exact ⟨fromSeq, hfrom, hle⟩
  · rintro ⟨fromSeq, hfrom, hle⟩
    obtain ⟨hrun, hservice⟩ := (howned update hmem).ids hkey
    exact ⟨update, hmem, fromSeq, hfrom, hids.1.trans hrun.symm, hids.2.trans hservice.symm, hle⟩

theorem applyUpdates_of_mem (cursors : BTreeMap IngestCursor) {updates : List PendingUpdate}
    (hkeys : (updates.map (·.key)).Nodup) {update : PendingUpdate} (hmem : update ∈ updates) :
    (applyUpdates cursors updates)[update.key]? = some update.cursor := by
  induction updates generalizing cursors with
  | nil => exact nomatch hmem
  | cons e es ih =>
      obtain ⟨hnew, hkeys⟩ := List.nodup_cons.mp hkeys
      show (applyUpdates (cursors.insert e.key e.cursor) es)[update.key]? = _
      rcases List.mem_cons.mp hmem with rfl | hmem
      · rw [applyUpdates_of_not_mem _ hnew]
        simp
      · exact ih _ hkeys hmem

/-- Recording an update keeps whose the updates are. -/
theorem mem_recordUpdate {updates : List PendingUpdate} {update u : PendingUpdate}
    (h : u ∈ recordUpdate updates update) :
    u = update ∨ ∃ u' ∈ updates, u.key = u'.key ∧ u.runId = u'.runId ∧ u.service = u'.service := by
  induction updates with
  | nil => exact Or.inl (List.mem_singleton.mp h)
  | cons e es ih =>
      rw [recordUpdate] at h
      by_cases hkey : e.key = update.key
      · rw [if_pos hkey] at h
        rcases List.mem_cons.mp h with rfl | h
        · exact Or.inr ⟨e, List.mem_cons_self, rfl, rfl, rfl⟩
        · exact Or.inr ⟨u, List.mem_cons_of_mem _ h, rfl, rfl, rfl⟩
      · rw [if_neg hkey] at h
        rcases List.mem_cons.mp h with rfl | h
        · exact Or.inr ⟨u, List.mem_cons_self, rfl, rfl, rfl⟩
        · rcases ih h with hu | ⟨u', hu', hsame⟩
          · exact Or.inl hu
          · exact Or.inr ⟨u', List.mem_cons_of_mem _ hu', hsame⟩

/-- Recording an update under a key that is there merges it. -/
theorem recordUpdate_merge {updates : List PendingUpdate} (hkeys : (updates.map (·.key)).Nodup)
    {update u : PendingUpdate} (hmem : u ∈ updates) (hkey : u.key = update.key) :
    { u with
      cursor := update.cursor
      deleteFromSeq := u.deleteFromSeq.or update.deleteFromSeq } ∈ recordUpdate updates update := by
  induction updates with
  | nil => exact nomatch hmem
  | cons e es ih =>
      obtain ⟨hnew, hkeys⟩ := List.nodup_cons.mp hkeys
      rw [recordUpdate]
      by_cases he : e.key = update.key
      · rw [if_pos he]
        rcases List.mem_cons.mp hmem with rfl | hmem
        · exact List.mem_cons_self
        · exact absurd (List.mem_map.mpr ⟨u, hmem, hkey.trans he.symm⟩) hnew
      · rw [if_neg he]
        rcases List.mem_cons.mp hmem with rfl | hmem
        · exact absurd hkey he
        · exact List.mem_cons_of_mem _ (ih hkeys hmem)

theorem recordUpdate_other {updates : List PendingUpdate} {update u : PendingUpdate}
    (hmem : u ∈ updates) (hkey : u.key ≠ update.key) : u ∈ recordUpdate updates update := by
  induction updates with
  | nil => exact nomatch hmem
  | cons e es ih =>
      rw [recordUpdate]
      by_cases he : e.key = update.key
      · rw [if_pos he]
        rcases List.mem_cons.mp hmem with rfl | hmem
        · exact absurd he hkey
        · exact List.mem_cons_of_mem _ hmem
      · rw [if_neg he]
        rcases List.mem_cons.mp hmem with rfl | hmem
        · exact List.mem_cons_self
        · exact List.mem_cons_of_mem _ (ih hmem)

theorem recordUpdate_nodup {updates : List PendingUpdate} (hkeys : (updates.map (·.key)).Nodup)
    (update : PendingUpdate) : ((recordUpdate updates update).map (·.key)).Nodup := by
  rw [recordUpdate_keys]
  split
  · exact hkeys
  · rename_i hnew
    refine List.nodup_append.mpr ⟨hkeys, List.pairwise_singleton _ _, ?_⟩
    intro k hk k' hk' he
    rw [List.mem_singleton.mp hk'] at he
    exact hnew (he ▸ hk)

/-! ## A source in the middle of a call -/

variable (fmt minTsNanos s)

/-- The cursor in the process stands behind `base`, the one in the file behind a
    part of it. -/
structure Tracked (st : Store ix) (base : List UInt8) : Prop where
  memory : storedCursor st.sources s = cursorAt base
  saved : ∃ done, done <+: base ∧ rest newline done = []
    ∧ storedCursor st.savedSources s = cursorAt done

/-- What is true of a source between two calls, and wherever one stops. -/
def Sound (file : List UInt8) (hi : Nat) (st : Store ix) : Prop :=
  ∃ base, base <+: file ∧ rest newline base = []
    ∧ Holds s st (textLines base).length hi (docsAt fmt minTsNanos s base) ∧ Tracked s st base

/-- What the index holds is exactly the documents of `base`. -/
def Settled (st : Store ix) (base : List UInt8) : Prop :=
  Holds s st (textLines base).length (textLines base).length (docsAt fmt minTsNanos s base)

/-- The call began with the cursor behind `base₀`, or, if the file was
    `truncated` below the stored cursor, afresh.  The index has `base`, the
    batch what follows it up to `view`. -/
structure Progress (file : List UInt8) (hi : Nat) (truncated : Prop) (base₀ : List UInt8)
    (batch : IngestBatch) (base view : List UInt8) (st : Store ix) : Prop where
  holds : Holds s st (textLines base).length hi (docsAt fmt minTsNanos s base)
  tracked : Tracked s st base ∨ (truncated ∧ base = [])
  settled : base = base₀ ∨ Settled fmt minTsNanos s st base
  finished : rest newline base = []
  grown : base <+: view
  within : view <+: file
  viewFinished : rest newline view = []
  docs : docsOf batch.pendingDocs s = docsBetween fmt minTsNanos s base view
  pending : (sourceKey s ∉ updateKeys batch ∧ view = base)
    ∨ ∃ update ∈ batch.pendingUpdates, update.key = sourceKey s ∧ update.cursor = cursorAt view
      ∧ (update.deleteFromSeq = some (textLines base).length
        ∨ update.deleteFromSeq = none ∧ Settled fmt minTsNanos s st base)
  owned : ∀ update ∈ batch.pendingUpdates, Owned s update
  ok : BatchOk batch

variable {fmt minTsNanos s}
variable {file : List UInt8} {hi : Nat} {truncated : Prop} {base₀ base view : List UInt8}
variable {batch : IngestBatch} {st : Store ix}

theorem docsBetween_self (done : List UInt8) : docsBetween fmt minTsNanos s done done = [] := by
  rw [docsBetween, List.drop_length]
  rfl

theorem Tracked.queue (h : Tracked s st base) (queue : List WriterOp) :
    Tracked s { st with queue := queue } base := ⟨h.memory, h.saved⟩

/-- Where a call may stop. -/
theorem Progress.stopped
    (h : Progress fmt minTsNanos s file hi truncated base₀ batch base view st) :
    truncated ∨ Sound fmt minTsNanos s file hi st := by
  rcases h.tracked with htracked | htruncated
  · exact Or.inr ⟨base, h.grown.trans h.within, h.finished, h.holds, htracked⟩
  · exact Or.inl htruncated.1

/-- The operations of the batch leave alone what the index has of `base`. -/
theorem Progress.ops (hhi : (textLines file).length ≤ hi)
    (h : Progress fmt minTsNanos s file hi truncated base₀ batch base view st) :
    ∀ op ∈ batchOps batch, Beyond s (textLines base).length hi op := by
  intro op hop
  rcases List.mem_append.mp hop with hop | hop
  · obtain ⟨update, hmem, hop⟩ := List.mem_filterMap.mp hop
    obtain ⟨fromSeq, hfrom, rfl⟩ := Option.map_eq_some_iff.mp hop
    intro hids
    have hkey := (h.owned update hmem).key hids
    rcases h.pending with ⟨hnew, -⟩ | ⟨update', hmem', hkey', -, hmarker⟩
    · exact absurd (List.mem_map.mpr ⟨update, hmem, hkey⟩) hnew
    · have hsame : update = update' :=
        List.inj_on_of_nodup_map h.ok.keys hmem hmem' (hkey.trans hkey'.symm)
      rw [← hsame, hfrom] at hmarker
      rcases hmarker with hmarker | ⟨hmarker, -⟩
      · exact Nat.le_of_eq (Option.some.inj hmarker).symm
      · exact nomatch hmarker
  · obtain ⟨doc, hmem, rfl⟩ := List.mem_map.mp hop
    intro hids
    have hdoc : doc ∈ docsBetween fmt minTsNanos s base view := by
      rw [← h.docs]
      exact mem_docsOf.mpr ⟨hmem, hids⟩
    obtain ⟨-, -, hfrom, hto⟩ := mem_docsBetween hdoc
    refine ⟨hfrom, Nat.lt_of_lt_of_le hto ?_⟩
    rw [← lines_grown_length h.finished h.grown]
    refine Nat.le_trans ?_ hhi
    rw [lines_grown_length h.viewFinished h.within]
    exact Nat.le_add_right _ _

/-- The documents after the commit of a batch, from those of a commit without it. -/
theorem docs_flush (st : Store ix) (batch : IngestBatch) :
    ix.docs (Store.commit { st with queue := st.queue ++ batchOps batch }).index
      = (ix.docs st.commit.index).filter (fun d => !deleteQuery batch.pendingUpdates d)
        ++ batch.pendingDocs := by
  rw [docs_commit, docs_commit, List.filter_append, List.filter_filter, added_append,
    List.append_assoc, added_batchOps]
  congr 1
  · refine List.filter_congr ?_
    intro d _
    have hdeleted : deleted (st.queue ++ batchOps batch) d
        = (deleted st.queue d || deleteQuery batch.pendingUpdates d) := by
      rw [deleted, List.any_append, ← deleted, ← deleted, deleted_batchOps]
    show (!deleted (st.queue ++ batchOps batch) d) = _
    rw [hdeleted, Bool.not_or, Bool.and_comm]
  · congr 1
    refine List.filter_congr ?_
    intro d _
    rw [deleted_batchOps]

theorem docsOf_filter_not (p : PendingDoc → Bool) (docs : List PendingDoc)
    {q : PendingDoc → Bool}
    (h : ∀ d, d.runId = s.runId ∧ d.service = s.service → p d = q d) :
    docsOf (docs.filter p) s = (docsOf docs s).filter q := by
  rw [docsOf, docsOf, List.filter_filter, List.filter_filter]
  refine List.filter_congr ?_
  intro d _
  by_cases hids : d.runId = s.runId ∧ d.service = s.service
  · rw [h d hids, Bool.and_comm]
  · have hother : (d.runId == s.runId && d.service == s.service) = false := by
      simpa using hids
    rw [hother, Bool.false_and, Bool.and_false]

/-- **A FLUSH**: after the commit of the batch the index has `view`, and nothing
    beyond it if the batch had an update of the source. -/
theorem Progress.flush (hhi : (textLines file).length ≤ hi)
    (h : Progress fmt minTsNanos s file hi truncated base₀ batch base view st) :
    let st' := Store.commit { st with queue := st.queue ++ batchOps batch }
    Holds s st' (textLines view).length hi (docsAt fmt minTsNanos s view)
      ∧ (sourceKey s ∈ updateKeys batch → Settled fmt minTsNanos s st' view) := by
  intro st'
  have hheld : Holds s st' (textLines base).length hi (docsAt fmt minTsNanos s base) :=
    (h.holds.queue (h.ops hhi)).commit
  rcases h.pending with ⟨hnew, rfl⟩ | ⟨update, hmem, hkey, -, hmarker⟩
  · exact ⟨hheld, fun hold => absurd hold hnew⟩
  · have hcommitted := h.holds.commit
    have hdocs : docsOf (ix.docs st'.index) s = docsAt fmt minTsNanos s view := by
      rw [docs_flush, docsOf_append, h.docs, docsAt_grown h.finished h.grown]
      congr 1
      rcases hmarker with hmarker | ⟨hmarker, hsettled⟩
      · -- the first update of the call deletes from the cursor on
        rw [← hcommitted.docs, below]
        refine docsOf_filter_not _ _ ?_
        intro d hids
        have hiff := deleteQuery_of_mem h.ok.keys h.owned hmem hkey hids
        by_cases hlt : d.seq < (textLines base).length
        · have hkeep : deleteQuery batch.pendingUpdates d = false := by
            refine Bool.eq_false_iff.mpr ?_
            intro hgone
            obtain ⟨fromSeq, hfrom, hle⟩ := hiff.mp hgone
            rw [hmarker] at hfrom
            have := Option.some.inj hfrom
            omega
          simp [hkeep, hlt]
        · have hgone := hiff.mpr ⟨_, hmarker, Nat.le_of_not_lt hlt⟩
          simp [hgone, hlt]
      · -- a later one deletes nothing: an earlier flush of the call has done it
        have hsame : docsOf ((ix.docs st.commit.index).filter
            (fun d => !deleteQuery batch.pendingUpdates d)) s
            = (docsOf (ix.docs st.commit.index) s).filter (fun _ => true) := by
          refine docsOf_filter_not _ _ ?_
          intro d hids
          have hkeep : deleteQuery batch.pendingUpdates d = false := by
            refine Bool.eq_false_iff.mpr ?_
            intro hgone
            obtain ⟨fromSeq, hfrom, -⟩ :=
              (deleteQuery_of_mem h.ok.keys h.owned hmem hkey hids).mp hgone
            rw [hmarker] at hfrom
            exact nomatch hfrom
          rw [hkeep]; rfl
        rw [hsame, List.filter_eq_self.mpr (fun _ _ => rfl)]
        exact (Holds.commit hsettled).docsOf
    have hsettled : Settled fmt minTsNanos s st' view := by
      refine ⟨?_, ?_, fun op hop => nomatch hop⟩
      · rw [hdocs, below_eq_self (fun d hd => (mem_docsAt hd).2.2)]
      · intro d hd
        rw [hdocs] at hd
        exact (mem_docsAt hd).2.2
    refine ⟨hsettled.mono ?_, fun _ => hsettled⟩
    refine Nat.le_trans ?_ hhi
    rw [lines_grown_length h.viewFinished h.within]
    exact Nat.le_add_right _ _

end Source

end DevstackIngestPending
