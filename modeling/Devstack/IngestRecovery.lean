import Devstack.IngestPending

/-! # What an ingest leaves of one source, wherever it stops

    The steps of a call, one by one: each keeps the source sound, so a call
    stopped before any of them leaves it sound, and a call that ends leaves the
    index with the whole file (`ingestSourcesAfter_spec`).  A call for other
    sources keeps what the index holds of this one
    (`ingestSourcesAfter_keeps`).  Without a fault every call ends. -/

namespace DevstackIngestRecovery

open DevstackModel DevstackLines DevstackLossyUtf8 DevstackFaults DevstackIngestFaults
open DevstackIngestPending
open DevstackIngest hiding commitIngestBatch readChunk readLoop ingestSource ingestSourcesAfter
open DevstackIngestExact hiding World World.start Action step

/- A triple is used by its rules here, never unfolded. -/
attribute [local irreducible] Spec

section Source

variable {fmt : LineFormat} {minTsNanos : Option Int} {s : LogSource} {ix : SearchIndex}
variable {file : List UInt8} {hi : Nat} {truncated : Prop} {base₀ base view : List UInt8}
variable {batch : IngestBatch} {st : Store ix}

/-! ## The steps of a call -/

theorem queueAll_spec {E : Store ix → Prop} (ops : List WriterOp) (st : Store ix)
    (hE : ∀ pre, pre <+: ops → E { st with queue := st.queue ++ pre }) :
    Spec E (fun st' => st' = st) (queueAll ops)
      (fun _ st' => st' = { st with queue := st.queue ++ ops }) := by
  induction ops generalizing st with
  | nil =>
      refine spec_pure ?_
      rintro st' rfl
      rw [List.append_nil]
  | cons op ops ih =>
      have hstart := hE [] List.nil_prefix
      rw [List.append_nil] at hstart
      refine spec_bind (Q := fun _ st' => st' = st.queueOp op) (spec_act ?_ ?_) (fun _ => ?_)
      · rintro st' rfl
        exact hstart
      · rintro st' rfl
        rfl
      · have hrest := ih (st.queueOp op) (by
          intro pre hpre
          show E { st with queue := st.queue ++ [op] ++ pre }
          rw [List.append_assoc]
          exact hE (op :: pre) ((List.prefix_cons_inj op).mpr hpre))
        rw [Store.queueOp, List.append_assoc] at hrest
        exact hrest

/-- The store with the operations of a batch committed. -/
def committed (st : Store ix) (batch : IngestBatch) : Store ix :=
  Store.commit { st with queue := st.queue ++ batchOps batch }

theorem storedCursor_applyUpdates (cursors : BTreeMap IngestCursor)
    (h : Progress fmt minTsNanos s file hi truncated base₀ batch base view st) :
    storedCursor (applyUpdates cursors batch.pendingUpdates) s
      = if sourceKey s ∈ updateKeys batch then cursorAt view else storedCursor cursors s := by
  rcases h.pending with ⟨hnew, -⟩ | ⟨update, hmem, hkey, hcursor, -⟩
  · rw [if_neg hnew, storedCursor, applyUpdates_of_not_mem cursors hnew]
    rfl
  · have hold : sourceKey s ∈ updateKeys batch := List.mem_map.mpr ⟨update, hmem, hkey⟩
    rw [if_pos hold, storedCursor, ← hkey, applyUpdates_of_mem cursors h.ok.keys hmem, hcursor]
    rfl

/-- Between the commit and the write of the cursor file. -/
theorem progress_stored (hhi : (textLines file).length ≤ hi)
    (h : Progress fmt minTsNanos s file hi truncated base₀ batch base view st) :
    truncated ∨ Sound fmt minTsNanos s file hi
      (Store.storeCursors batch.pendingUpdates (committed st batch)) := by
  obtain ⟨hheld, -⟩ := h.flush hhi
  rcases h.tracked with htracked | htruncated
  · refine Or.inr ⟨view, h.within, h.viewFinished, ⟨hheld.docs, hheld.bounded, hheld.queued⟩, ?_, ?_⟩
    · rw [Store.storeCursors, storedCursor_applyUpdates _ h]
      split
      · rfl
      · rename_i hnew
        rcases h.pending with ⟨-, rfl⟩ | ⟨update, hmem, hkey, -⟩
        · exact htracked.memory
        · exact absurd (List.mem_map.mpr ⟨update, hmem, hkey⟩) hnew
    · obtain ⟨done, hdone, hfin, hsaved⟩ := htracked.saved
      exact ⟨done, hdone.trans h.grown, hfin, hsaved⟩
  · exact Or.inl htruncated.1

/-- After a flush the batch is empty and the index has `view`. -/
theorem progress_after_flush (hhi : (textLines file).length ≤ hi)
    (h : Progress fmt minTsNanos s file hi truncated base₀ batch base view st) :
    Progress fmt minTsNanos s file hi truncated base₀ .empty view view (flushed st batch)
      ∧ (sourceKey s ∈ updateKeys batch →
        Settled fmt minTsNanos s (flushed st batch) view) := by
  obtain ⟨hheld, hsettled⟩ := h.flush hhi
  have hmemory : storedCursor (flushed st batch).sources s
      = if sourceKey s ∈ updateKeys batch then cursorAt view else storedCursor st.sources s :=
    storedCursor_applyUpdates st.sources h
  have hlast : sourceKey s ∈ updateKeys batch →
      Settled fmt minTsNanos s (flushed st batch) view := fun hold =>
    ⟨(hsettled hold).docs, (hsettled hold).bounded, (hsettled hold).queued⟩
  refine ⟨⟨⟨hheld.docs, hheld.bounded, hheld.queued⟩, ?_, ?_, h.viewFinished, List.prefix_rfl,
    h.within, h.viewFinished, (docsBetween_self view).symm, Or.inl ⟨List.not_mem_nil, rfl⟩,
    fun _ hmem => (nomatch hmem), batchOk_empty⟩, hlast⟩
  · -- the file has the cursors of the process now
    have hboth : storedCursor (flushed st batch).sources s = cursorAt view →
        Tracked s (flushed st batch) view := fun hcursor =>
      ⟨hcursor, view, List.prefix_rfl, h.viewFinished, hcursor⟩
    rcases h.pending with ⟨hnew, rfl⟩ | ⟨update, hmem, hkey, -⟩
    · rw [if_neg hnew] at hmemory
      rcases h.tracked with htracked | htruncated
      · exact Or.inl (hboth (hmemory.trans htracked.memory))
      · exact Or.inr htruncated
    · have hold : sourceKey s ∈ updateKeys batch := List.mem_map.mpr ⟨update, hmem, hkey⟩
      rw [if_pos hold] at hmemory
      exact Or.inl (hboth hmemory)
  · rcases h.pending with ⟨hnew, rfl⟩ | ⟨update, hmem, hkey, -⟩
    · rcases h.settled with hsame | hbefore
      · exact Or.inl hsame
      · have hops : ∀ op ∈ batchOps batch,
            Beyond s (textLines view).length (textLines view).length op := by
          intro op hop
          have hbeyond := h.ops hhi op hop
          rcases List.mem_append.mp hop with hdel | hadd
          · obtain ⟨update, hmem, hdel⟩ := List.mem_filterMap.mp hdel
            obtain ⟨fromSeq, -, rfl⟩ := Option.map_eq_some_iff.mp hdel
            exact hbeyond
          · obtain ⟨doc, hmem, rfl⟩ := List.mem_map.mp hadd
            intro hids
            have hdoc : doc ∈ docsOf batch.pendingDocs s := mem_docsOf.mpr ⟨hmem, hids⟩
            rw [h.docs, docsBetween_self] at hdoc
            exact nomatch hdoc
        have hafter := (Holds.queue hbefore hops).commit
        exact Or.inr ⟨hafter.docs, hafter.bounded, hafter.queued⟩
    · exact Or.inr (hlast (List.mem_map.mpr ⟨update, hmem, hkey⟩))

/-- **A COMMIT OF A BATCH**, stopped or not. -/
theorem commitIngestBatch_spec (hhi : (textLines file).length ≤ hi) (batch : IngestBatch)
    (base₀ base view : List UInt8) :
    Spec (fun st : Store ix => truncated ∨ Sound fmt minTsNanos s file hi st)
      (Progress fmt minTsNanos s file hi truncated base₀ batch base view)
      (commitIngestBatch batch)
      (fun batch' st' => Progress fmt minTsNanos s file hi truncated base₀ batch' view view st'
        ∧ sourceKey s ∉ updateKeys batch'
        ∧ (sourceKey s ∈ updateKeys batch → Settled fmt minTsNanos s st' view)) := by
  refine spec_state ?_
  intro st h
  have hpart : ∀ pre, pre <+: batchOps batch →
      truncated ∨ Sound fmt minTsNanos s file hi { st with queue := st.queue ++ pre } := by
    intro pre hpre
    rcases h.tracked with htracked | htruncated
    · exact Or.inr ⟨base, h.grown.trans h.within, h.finished,
        h.holds.queue (fun op hop => h.ops hhi op (hpre.subset hop)), htracked.queue _⟩
    · exact Or.inl htruncated.1
  rw [commitIngestBatch]
  by_cases hnil : batch.pendingUpdates = []
  · rw [if_pos hnil]
    refine spec_pure ?_
    rintro st' rfl
    have hnone : updateKeys batch = [] := by rw [updateKeys, hnil]; rfl
    rcases h.pending with ⟨hnew, rfl⟩ | ⟨update, hmem, -⟩
    · exact ⟨h, hnew, fun hold => absurd hold hnew⟩
    · rw [hnil] at hmem
      cases hmem
  · rw [if_neg hnil]
    refine spec_bind (queueAll_spec _ st ?_) (fun _ => ?_)
    · intro pre hpre
      exact hpart pre (hpre.trans (List.prefix_append _ _))
    refine spec_bind (queueAll_spec _ _ ?_) (fun _ => ?_)
    · intro pre hpre
      dsimp only
      rw [List.append_assoc]
      exact hpart _ ((List.prefix_append_right_inj _).mpr hpre)
    -- the commit, and a stop right after it
    have hcommit : truncated ∨ Sound fmt minTsNanos s file hi (committed st batch) := by
      rcases h.tracked with htracked | htruncated
      · have hheld := (h.holds.queue (h.ops hhi)).commit
        exact Or.inr ⟨base, h.grown.trans h.within, h.finished, hheld, htracked.memory,
          htracked.saved⟩
      · exact Or.inl htruncated.1
    refine spec_bind (Q := fun _ st' => st' = committed st batch) (spec_act ?_ ?_) (fun _ => ?_)
    · rintro st' rfl
      rw [List.append_assoc]
      exact hpart _ List.prefix_rfl
    · rintro st' rfl
      rw [List.append_assoc]
      rfl
    refine spec_bind (Q := fun _ st' => st' = committed st batch) (spec_act ?_ ?_) (fun _ => ?_)
    · rintro st' rfl
      exact hcommit
    · rintro st' rfl
      rfl
    refine spec_bind
      (Q := fun _ st' => st' = Store.storeCursors batch.pendingUpdates (committed st batch))
      (spec_act ?_ ?_) (fun _ => ?_)
    · rintro st' rfl
      exact hcommit
    · rintro st' rfl
      rfl
    refine spec_bind (Q := fun _ st' => st' = flushed st batch) (spec_act ?_ ?_) (fun _ => ?_)
    · rintro st' rfl
      exact progress_stored hhi h
    · rintro st' rfl
      rfl
    refine spec_pure ?_
    rintro st' rfl
    obtain ⟨hprogress, hsettled⟩ := progress_after_flush hhi h
    exact ⟨hprogress, List.not_mem_nil, hsettled⟩

/-! ## Reading the source, and reading another -/

theorem advance_after (fmt : LineFormat) (minTsNanos : Option Int) (t : LogSource)
    (cursor : IngestCursor) (deleteFromSeq : Option Nat)
    {complete : List UInt8} (hfin : rest newline complete = []) (hne : complete ≠ [])
    (batch : IngestBatch) :
    let cursor' : IngestCursor :=
      ⟨cursor.offset + strLen (scan complete), cursor.nextSeq + (textLines complete).length⟩
    let advanced := advance fmt minTsNanos t cursor deleteFromSeq complete batch
    advanced.1 = cursor'
      ∧ advanced.2.pendingUpdates = recordUpdate batch.pendingUpdates
          ⟨sourceKey t, cursor', t.runId, t.service, deleteFromSeq⟩
      ∧ advanced.2.pendingDocs = batch.pendingDocs
          ++ kept minTsNanos (docsFrom fmt t cursor.nextSeq (textLines complete)) := by
  intro cursor' advanced
  obtain ⟨hcursor, hupdates, hdocs⟩ :=
    collectCompleteLines_after fmt t minTsNanos cursor deleteFromSeq hfin hne batch
  have hmoved : ¬ (collectCompleteLines fmt t minTsNanos cursor deleteFromSeq complete
      batch).1.offset = cursor.offset := by
    have hpos := List.length_pos_iff.mpr hne
    have hlen := strLen_scan_ge complete
    rw [hcursor]
    show ¬ cursor.offset + strLen (scan complete) = cursor.offset
    omega
  have hadvanced : advanced = _ := if_neg hmoved
  rw [hadvanced]
  exact ⟨hcursor, hupdates, hdocs⟩

/-- An update and documents of another source. -/
theorem progress_other {t : LogSource} (ht : sourceKey t ≠ sourceKey s) {batch' : IngestBatch}
    {update : PendingUpdate} (hkey : update.key = sourceKey t)
    (hids : update.runId = t.runId ∧ update.service = t.service)
    (hupdates : batch'.pendingUpdates = recordUpdate batch.pendingUpdates update)
    {docs : List PendingDoc} (hdocs : batch'.pendingDocs = batch.pendingDocs ++ docs)
    (hdocsIds : ∀ d ∈ docs, d.runId = t.runId ∧ d.service = t.service)
    (h : Progress fmt minTsNanos s file hi truncated base₀ batch base view st) :
    Progress fmt minTsNanos s file hi truncated base₀ batch' base view st
      ∧ (sourceKey s ∈ updateKeys batch' → sourceKey s ∈ updateKeys batch) := by
  have hother : ∀ runId service : String, runId = t.runId ∧ service = t.service →
      ¬ (runId = s.runId ∧ service = s.service) := by
    rintro runId service ⟨rfl, rfl⟩ ⟨hrun, hservice⟩
    exact ht (by rw [sourceKey, sourceKey, hrun, hservice])
  have hkeys : sourceKey s ∈ updateKeys batch' → sourceKey s ∈ updateKeys batch := by
    intro hmem
    rw [updateKeys, hupdates, recordUpdate_keys] at hmem
    split at hmem
    · exact hmem
    · rcases List.mem_append.mp hmem with hmem | hmem
      · exact hmem
      · exact absurd (hkey.symm.trans (List.mem_singleton.mp hmem).symm) ht
  refine ⟨⟨h.holds, h.tracked, h.settled, h.finished, h.grown, h.within, h.viewFinished, ?_, ?_,
    ?_, ?_, ?_⟩, hkeys⟩
  · rw [hdocs, docsOf_append, h.docs,
      docsOf_eq_nil (fun d hd => hother _ _ (hdocsIds d hd)), List.append_nil]
  · rcases h.pending with ⟨hnew, hview⟩ | ⟨u, hmem, hukey, hcursor, hmarker⟩
    · exact Or.inl ⟨fun hold => hnew (hkeys hold), hview⟩
    · refine Or.inr ⟨u, ?_, hukey, hcursor, hmarker⟩
      rw [hupdates]
      exact recordUpdate_other hmem (by rw [hukey, hkey]; exact Ne.symm ht)
  · intro u hu
    rw [hupdates] at hu
    rcases mem_recordUpdate hu with rfl | ⟨u', hu', hsame⟩
    · exact Or.inr ⟨by rw [hkey]; exact ht, hother _ _ hids⟩
    · obtain ⟨hk, hr, hs⟩ := hsame
      rw [Owned, hk, hr, hs]
      exact h.owned u' hu'
  · rw [updateKeys, hupdates]
    exact recordUpdate_nodup h.ok.keys update
  · intro hnil
    rw [hupdates] at hnil
    exact absurd hnil (recordUpdate_ne_nil _ _)

variable (fmt minTsNanos s file hi truncated base₀)

/-- What the loop over the lines of `s` has done. -/
structure Reading (loop : Reader) (base view : List UInt8) (st : Store ix) : Prop where
  progress : Progress fmt minTsNanos s file hi truncated base₀ loop.batch base view st
  split : view ++ (loop.carry ++ loop.remaining) = file
  carry : newline ∉ loop.carry
  cursor : loop.cursor = cursorAt view
  marker : (loop.deleteFromSeq = some (textLines base).length
      ∧ sourceKey s ∉ updateKeys loop.batch)
    ∨ (loop.deleteFromSeq = none
      ∧ (sourceKey s ∈ updateKeys loop.batch ∨ Settled fmt minTsNanos s st base))

/-- The batch has the source up to `view`; a source still `waiting` has no
    update in it. -/
def At (waiting : Prop) (view : List UInt8) (batch : IngestBatch) (st : Store ix) : Prop :=
  ∃ base, Progress fmt minTsNanos s file hi truncated base₀ batch base view st
    ∧ (waiting → sourceKey s ∉ updateKeys batch)

variable (ix) in
/-- Where a call may stop. -/
def Stopped (st : Store ix) : Prop := truncated ∨ Sound fmt minTsNanos s file hi st

variable {fmt minTsNanos s file hi truncated base₀}

/-- The batch after the lines of a complete part. -/
theorem Reading.collect {loop : Reader} (hutf8 : isUtf8 (completePart newline file) = true)
    {complete more : List UInt8} (hfin : rest newline complete = []) (hne : complete ≠ [])
    (hfile : view ++ complete ++ more = file)
    (h : Reading fmt minTsNanos s file hi truncated base₀ loop base view st) :
    let advanced :=
      advance fmt minTsNanos s loop.cursor loop.deleteFromSeq complete loop.batch
    advanced.1 = cursorAt (view ++ complete)
      ∧ Progress fmt minTsNanos s file hi truncated base₀ advanced.2 base (view ++ complete) st
      ∧ sourceKey s ∈ updateKeys advanced.2 := by
  intro advanced
  obtain ⟨hcursor, hupdates, hdocs⟩ := advance_after fmt minTsNanos s
    loop.cursor loop.deleteFromSeq hfin hne loop.batch
  have hp := h.progress
  have hviewFin : rest newline (view ++ complete) = [] := by
    rw [(lines_append newline hp.viewFinished complete).2, hfin]
  have hlen : strLen (scan complete) = complete.length := by
    have hboth := isUtf8_finished hviewFin hfile hutf8
    rw [isUtf8_append_finished hp.viewFinished, Bool.and_eq_true] at hboth
    exact strLen_of_isUtf8 hboth.2
  have hlines := textLines_append hp.viewFinished complete
  have hat : (⟨loop.cursor.offset + strLen (scan complete),
      loop.cursor.nextSeq + (textLines complete).length⟩ : IngestCursor)
      = cursorAt (view ++ complete) := by
    rw [h.cursor, hlen, cursorAt, cursorAt, hlines, List.length_append, List.length_append]
  rw [hat] at hcursor hupdates
  have hkeys : updateKeys advanced.2 = if sourceKey s ∈ updateKeys loop.batch
      then updateKeys loop.batch else updateKeys loop.batch ++ [sourceKey s] := by
    rw [updateKeys, hupdates, recordUpdate_keys]; rfl
  have hin : sourceKey s ∈ updateKeys advanced.2 := by
    rw [hkeys]
    split
    · assumption
    · exact List.mem_append_right _ List.mem_cons_self
  refine ⟨hcursor, ⟨hp.holds, hp.tracked, hp.settled, hp.finished,
    hp.grown.trans (List.prefix_append _ _), ⟨more, hfile⟩, hviewFin, ?_, ?_, ?_, ?_, ?_⟩, hin⟩
  · have hself : docsOf (kept minTsNanos (docsFrom fmt s loop.cursor.nextSeq
        (textLines complete))) s
        = kept minTsNanos (docsFrom fmt s loop.cursor.nextSeq (textLines complete)) := by
      refine docsOf_eq_self ?_
      intro d hd
      obtain ⟨hrun, hservice, -⟩ := docsFrom_mem fmt s (List.mem_of_mem_filter hd)
      exact ⟨hrun, hservice⟩
    have hdrop : (view ++ complete).drop base.length = view.drop base.length ++ complete :=
      List.drop_append_of_le_length hp.grown.length_le
    have hdropFin : rest newline (view.drop base.length) = [] := by
      obtain ⟨new, rfl⟩ := hp.grown
      rw [List.drop_left]
      rw [← (lines_append newline hp.finished new).2]
      exact hp.viewFinished
    rw [hdocs, docsOf_append, hp.docs, hself, docsBetween, docsBetween, hdrop,
      textLines_append hdropFin, docsFrom_append, kept_append, h.cursor, cursorAt,
      lines_grown_length hp.finished hp.grown]
  · refine Or.inr ?_
    rw [hupdates]
    rcases hp.pending with ⟨hnew, -⟩ | ⟨u, hmem, hkey, -, hmarker⟩
    · rw [recordUpdate_of_not_mem hnew]
      refine ⟨_, List.mem_append_right _ List.mem_cons_self, rfl, rfl, ?_⟩
      rcases h.marker with ⟨hsome, -⟩ | ⟨hnone, hold | hsettled⟩
      · exact Or.inl hsome
      · exact absurd hold hnew
      · exact Or.inr ⟨hnone, hsettled⟩
    · refine ⟨_, recordUpdate_merge hp.ok.keys hmem hkey, hkey, rfl, ?_⟩
      have hold : sourceKey s ∈ updateKeys loop.batch := List.mem_map.mpr ⟨u, hmem, hkey⟩
      rcases hmarker with hsome | ⟨hnone, hsettled⟩
      · exact Or.inl (by show u.deleteFromSeq.or _ = _; rw [hsome]; rfl)
      · rcases h.marker with ⟨-, hnew⟩ | ⟨hloop, -⟩
        · exact absurd hold hnew
        · exact Or.inr ⟨by show u.deleteFromSeq.or loop.deleteFromSeq = _; rw [hnone, hloop]; rfl,
            hsettled⟩
  · intro u hu
    rw [hupdates] at hu
    rcases mem_recordUpdate hu with rfl | ⟨u', hu', hk, hr, hs⟩
    · exact Or.inl ⟨rfl, rfl, rfl⟩
    · rw [Owned, hk, hr, hs]
      exact hp.owned u' hu'
  · rw [updateKeys, hupdates]
    exact recordUpdate_nodup hp.ok.keys _
  · intro hnil
    rw [hupdates] at hnil
    exact absurd hnil (recordUpdate_ne_nil _ _)

theorem flushIfFull_spec (hhi : (textLines file).length ≤ hi) (batch : IngestBatch)
    (base₀ base view : List UInt8) :
    Spec (Stopped fmt minTsNanos s ix file hi truncated)
      (Progress fmt minTsNanos s file hi truncated base₀ batch base view) (flushIfFull batch)
      (fun batch' st' => ∃ base',
        Progress fmt minTsNanos s file hi truncated base₀ batch' base' view st'
          ∧ (sourceKey s ∈ updateKeys batch' → sourceKey s ∈ updateKeys batch)
          ∧ (sourceKey s ∈ updateKeys batch →
            sourceKey s ∈ updateKeys batch' ∨ Settled fmt minTsNanos s st' base')) := by
  rw [flushIfFull]
  refine spec_ite (fun _ => ?_) (fun _ => ?_)
  · refine spec_conseq (commitIngestBatch_spec hhi batch base₀ base view) (fun _ h => h) ?_
    rintro batch' st' ⟨hprogress, hnew, hsettled⟩
    exact ⟨view, hprogress, fun hold => absurd hold hnew, fun hold => Or.inr (hsettled hold)⟩
  · refine spec_pure ?_
    intro st h
    exact ⟨base, h, id, Or.inl⟩

/-- A turn that reads another source. -/
theorem readChunk_other (hhi : (textLines file).length ≤ hi) {t : LogSource}
    (ht : sourceKey t ≠ sourceKey s) (waiting : Prop) (view : List UInt8) (size : Nat)
    (loop : Reader) :
    Spec (Stopped fmt minTsNanos s ix file hi truncated)
      (At fmt minTsNanos s file hi truncated base₀ waiting view loop.batch)
      (readChunk fmt minTsNanos t size loop)
      (fun loop' => At fmt minTsNanos s file hi truncated base₀ waiting view loop'.batch) := by
  refine spec_state ?_
  rintro st ⟨base, hprogress, hwaiting⟩
  rw [readChunk]
  refine spec_bind (Q := fun _ st' => st' = st) (spec_act ?_ ?_) (fun _ => ?_)
  · rintro st' rfl
    exact hprogress.stopped
  · rintro st' rfl
    rfl
  dsimp only
  by_cases hnone : completePart newline (loop.carry ++ loop.remaining.take size) = []
  · rw [if_pos hnone]
    refine spec_pure ?_
    rintro st' rfl
    exact ⟨base, hprogress, hwaiting⟩
  · rw [if_neg hnone]
    obtain ⟨-, hupdates, hdocs⟩ := advance_after fmt minTsNanos t
      loop.cursor loop.deleteFromSeq (rest_completePart newline _) hnone loop.batch
    obtain ⟨hother, hkeys⟩ := progress_other ht rfl ⟨rfl, rfl⟩ hupdates hdocs (by
      intro d hd
      obtain ⟨hrun, hservice, -⟩ := docsFrom_mem fmt t (List.mem_of_mem_filter hd)
      exact ⟨hrun, hservice⟩) hprogress
    refine spec_bind (spec_conseq (flushIfFull_spec hhi _ base₀ base view) ?_ (fun _ _ h => h))
      (fun batch' => ?_)
    · rintro st' rfl
      exact hother
    · refine spec_pure ?_
      rintro st' ⟨base', hprogress', hkeys', -⟩
      exact ⟨base', hprogress', fun hw hold => hwaiting hw (hkeys (hkeys' hold))⟩

/-- A turn that reads the source. -/
theorem readChunk_spec (hhi : (textLines file).length ≤ hi)
    (hutf8 : isUtf8 (completePart newline file) = true) (size : Nat) (loop : Reader) :
    Spec (Stopped fmt minTsNanos s ix file hi truncated)
      (fun st => ∃ base view, Reading fmt minTsNanos s file hi truncated base₀ loop base view st)
      (readChunk fmt minTsNanos s size loop)
      (fun loop' st => loop'.remaining = loop.remaining.drop size
        ∧ ∃ base view, Reading fmt minTsNanos s file hi truncated base₀ loop' base view st) := by
  refine spec_state ?_
  rintro st ⟨base, view, h⟩
  rw [readChunk]
  refine spec_bind (Q := fun _ st' => st' = st) (spec_act ?_ ?_) (fun _ => ?_)
  · rintro st' rfl
    exact h.progress.stopped
  · rintro st' rfl
    rfl
  dsimp only
  have hsplit : view ++ (loop.carry ++ loop.remaining.take size ++ loop.remaining.drop size)
      = file := by
    rw [List.append_assoc loop.carry, List.take_append_drop]
    exact h.split
  generalize loop.carry ++ loop.remaining.take size = buffered at hsplit
  have hopen := not_mem_openPart newline buffered
  have hcut := completePart_append_openPart newline buffered
  by_cases hnone : completePart newline buffered = []
  · rw [if_pos hnone]
    rw [hnone, List.nil_append] at hcut
    rw [hcut] at hopen
    refine spec_pure ?_
    rintro st' rfl
    exact ⟨rfl, base, view, h.progress, hsplit, hopen, h.cursor, h.marker⟩
  · rw [if_neg hnone]
    have hfile : view ++ completePart newline buffered
        ++ (openPart newline buffered ++ loop.remaining.drop size) = file := by
      rw [← hsplit, List.append_assoc view, ← List.append_assoc (completePart newline buffered),
        hcut]
    obtain ⟨hcursor, hprogress, hin⟩ :=
      h.collect hutf8 (rest_completePart newline buffered) hnone hfile
    refine spec_bind (spec_conseq (flushIfFull_spec hhi _ base₀ base
        (view ++ completePart newline buffered)) ?_ (fun _ _ h => h))
      (fun batch' => ?_)
    · rintro st' rfl
      exact hprogress
    · refine spec_pure ?_
      rintro st' ⟨base', hprogress', -, hlater⟩
      exact ⟨rfl, base', _, hprogress', hfile, hopen, hcursor, Or.inr ⟨rfl, hlater hin⟩⟩

theorem readLoop_other (hhi : (textLines file).length ≤ hi) {t : LogSource}
    (ht : sourceKey t ≠ sourceKey s) (waiting : Prop) (view : List UInt8) (sizes : Nat → Nat)
    (fuel i : Nat) (loop : Reader) :
    Spec (Stopped fmt minTsNanos s ix file hi truncated)
      (At fmt minTsNanos s file hi truncated base₀ waiting view loop.batch)
      (readLoop fmt minTsNanos t sizes fuel i loop)
      (fun loop' => At fmt minTsNanos s file hi truncated base₀ waiting view loop'.batch) := by
  induction fuel generalizing i loop with
  | zero => exact spec_pure (fun _ h => h)
  | succ fuel ih =>
      rw [readLoop]
      refine spec_ite (fun _ => spec_pure (fun _ h => h)) (fun _ => ?_)
      exact spec_bind (readChunk_other hhi ht waiting view _ loop) (fun loop' => ih (i + 1) loop')

/-- The loop reads to the end of the file, whatever the sizes of its reads. -/
theorem readLoop_spec (hhi : (textLines file).length ≤ hi)
    (hutf8 : isUtf8 (completePart newline file) = true) (sizes : Nat → Nat) (fuel i : Nat)
    (loop : Reader) (hfuel : loop.remaining.length ≤ fuel) :
    Spec (Stopped fmt minTsNanos s ix file hi truncated)
      (fun st => ∃ base view, Reading fmt minTsNanos s file hi truncated base₀ loop base view st)
      (readLoop fmt minTsNanos s sizes fuel i loop)
      (fun loop' => At fmt minTsNanos s file hi truncated base₀ False (completePart newline file)
        loop'.batch) := by
  have hend : ∀ loop : Reader, loop.remaining = [] → ∀ st : Store ix,
      (∃ base view, Reading fmt minTsNanos s file hi truncated base₀ loop base view st) →
        At fmt minTsNanos s file hi truncated base₀ False (completePart newline file)
          loop.batch st := by
    rintro loop hrem st ⟨base, view, h⟩
    have hsplit := h.split
    rw [hrem, List.append_nil] at hsplit
    have hview : completePart newline file = view := by
      rw [← hsplit]
      exact completePart_unique newline h.progress.viewFinished h.carry
    rw [hview]
    exact ⟨base, h.progress, fun hfalse => hfalse.elim⟩
  induction fuel generalizing i loop with
  | zero => exact spec_pure (hend loop (List.length_eq_zero_iff.mp (by omega)))
  | succ fuel ih =>
      rw [readLoop]
      refine spec_ite (fun hrem => spec_pure (hend loop hrem)) (fun hrem => ?_)
      refine spec_bind (readChunk_spec hhi hutf8 (readSize sizes i) loop) (fun loop' => ?_)
      refine spec_state ?_
      rintro st ⟨hdrop, hreading⟩
      have hpos : 0 < loop.remaining.length := List.length_pos_iff.mpr hrem
      have hsize : 1 ≤ readSize sizes i := Nat.le_max_left _ _
      have hless : loop'.remaining.length ≤ fuel := by
        rw [hdrop, List.length_drop]
        omega
      refine spec_conseq (ih (i + 1) loop' hless) ?_ (fun _ _ h => h)
      rintro st' rfl
      exact hreading

/-! ## All sources of a call -/

theorem ingestSource_other (hhi : (textLines file).length ≤ hi) {t : LogSource}
    (ht : sourceKey t ≠ sourceKey s) (waiting : Prop) (view : List UInt8) (sizes : Nat → Nat)
    (stored : IngestCursor) (bytes : Option (List UInt8)) (batch : IngestBatch) :
    Spec (Stopped fmt minTsNanos s ix file hi truncated)
      (At fmt minTsNanos s file hi truncated base₀ waiting view batch)
      (ingestSource fmt minTsNanos t sizes stored bytes batch)
      (At fmt minTsNanos s file hi truncated base₀ waiting view) := by
  cases bytes with
  | none => exact spec_pure (fun _ h => h)
  | some bytes =>
      refine spec_ite (fun _ => spec_pure (fun _ h => h)) (fun _ => ?_)
      refine spec_bind
        (Q := fun _ => At fmt minTsNanos s file hi truncated base₀ waiting view batch)
        (spec_act ?_ (fun _ h => h)) (fun _ => ?_)
      · rintro st ⟨base, hprogress, -⟩
        exact hprogress.stopped
      · refine spec_bind (Q := fun loop : Reader =>
          At fmt minTsNanos s file hi truncated base₀ waiting view loop.batch) ?_
          (fun loop => spec_pure (fun _ h => h))
        exact readLoop_other hhi ht waiting view sizes _ 0 ⟨_, _, _, _, batch⟩

theorem completePart_finished {done : List UInt8} (hfin : rest newline done = []) :
    completePart newline done = done := by
  have hself := completePart_append newline hfin []
  rw [List.append_nil] at hself
  rw [hself]
  exact List.append_nil done

/-- The part of the loop that reads the source itself.  Its stored cursor stands
    behind `base₀`, or past the end of a truncated file. -/
theorem ingestSource_spec (hhi : (textLines file).length ≤ hi)
    (hutf8 : isUtf8 (completePart newline file) = true) (sizes : Nat → Nat)
    {stored : IngestCursor} {bytes : Option (List UInt8)} (hbytes : bytes.getD [] = file)
    (hstored : stored = cursorAt base₀ ∨ (file.length < stored.offset ∧ base₀ = []))
    (batch : IngestBatch) :
    Spec (Stopped fmt minTsNanos s ix file hi truncated)
      (At fmt minTsNanos s file hi truncated base₀ True base₀ batch)
      (ingestSource fmt minTsNanos s sizes stored bytes batch)
      (At fmt minTsNanos s file hi truncated base₀ False (completePart newline file)) := by
  refine spec_state ?_
  rintro st ⟨base, hprogress, hwaiting⟩
  have hnew := hwaiting trivial
  obtain rfl : base₀ = base := by
    rcases hprogress.pending with ⟨-, hview⟩ | ⟨update, hmem, hkey, -⟩
    · exact hview
    · exact absurd (List.mem_map.mpr ⟨update, hmem, hkey⟩) hnew
  -- there is nothing to read
  have hskip : file = base₀ → At fmt minTsNanos s file hi truncated base₀ False
      (completePart newline file) batch st := by
    intro hfile
    rw [hfile, completePart_finished hprogress.finished, ← hfile]
    rw [← hfile] at hprogress
    exact ⟨file, hprogress, fun hfalse => hfalse.elim⟩
  cases bytes with
  | none =>
      have hnil : file = [] := hbytes.symm
      have hbase : base₀ = [] := List.prefix_nil.mp (hnil ▸ hprogress.within)
      refine spec_pure ?_
      rintro st' rfl
      exact hskip (hnil.trans hbase.symm)
  | some bytes =>
      obtain rfl : bytes = file := hbytes
      refine spec_ite (fun heq => ?_) (fun hne => ?_)
      · refine spec_pure ?_
        rintro st' rfl
        rcases hstored with rfl | ⟨hlt, -⟩
        · exact hskip (hprogress.within.eq_of_length heq.symm).symm
        · omega
      · refine spec_bind (Q := fun _ st' => st' = st) (spec_act ?_ ?_) (fun _ => ?_)
        · rintro st' rfl
          exact hprogress.stopped
        · rintro st' rfl
          rfl
        have hcursor : (if bytes.length < stored.offset then (⟨0, 0⟩ : IngestCursor) else stored)
            = cursorAt base₀ := by
          rcases hstored with rfl | ⟨hlt, rfl⟩
          · exact if_neg (Nat.not_lt.mpr hprogress.within.length_le)
          · exact if_pos hlt
        dsimp only
        rw [hcursor]
        refine spec_bind (spec_conseq
          (readLoop_spec hhi hutf8 sizes (bytes.drop base₀.length).length 0 _ (Nat.le_refl _)) ?_
          (fun _ _ h => h)) (fun loop => spec_pure (fun _ h => h))
        rintro st' rfl
        obtain ⟨more, hmore⟩ := hprogress.within
        refine ⟨base₀, base₀, hprogress, ?_, (fun hmem => nomatch hmem), rfl, Or.inl ⟨rfl, hnew⟩⟩
        show base₀ ++ bytes.drop base₀.length = bytes
        rw [← hmore, List.drop_left]

variable {sizes : LogSource → Nat → Nat} {files : BTreeMap (List UInt8)}
variable {cursors : BTreeMap IngestCursor}

theorem ingestSources_other (hhi : (textLines file).length ≤ hi) (waiting : Prop)
    (base₀ view : List UInt8) (sources : List LogSource)
    (hothers : ∀ t ∈ sources, sourceKey t ≠ sourceKey s) (batch : IngestBatch) :
    Spec (Stopped fmt minTsNanos s ix file hi truncated)
      (At fmt minTsNanos s file hi truncated base₀ waiting view batch)
      (ingestSources fmt minTsNanos sizes files cursors sources batch)
      (At fmt minTsNanos s file hi truncated base₀ waiting view) := by
  induction sources generalizing batch with
  | nil => exact spec_pure (fun _ h => h)
  | cons t sources ih =>
      exact spec_bind (ingestSource_other hhi (hothers t List.mem_cons_self) waiting view _ _ _ batch)
        (fun batch' => ih (fun t ht => hothers t (List.mem_cons_of_mem _ ht)) batch')

theorem ingestSources_spec (hhi : (textLines file).length ≤ hi)
    (hutf8 : isUtf8 (completePart newline file) = true) (hfile : fileBytes files s = file)
    (hstored : storedCursor cursors s = cursorAt base₀
      ∨ (file.length < (storedCursor cursors s).offset ∧ base₀ = []))
    (sources : List LogSource) (hkeys : (sources.map sourceKey).Nodup) (hs : s ∈ sources)
    (batch : IngestBatch) :
    Spec (Stopped fmt minTsNanos s ix file hi truncated)
      (At fmt minTsNanos s file hi truncated base₀ True base₀ batch)
      (ingestSources fmt minTsNanos sizes files cursors sources batch)
      (At fmt minTsNanos s file hi truncated base₀ False (completePart newline file)) := by
  induction sources generalizing batch with
  | nil => exact nomatch hs
  | cons t sources ih =>
      obtain ⟨hnew, hkeys⟩ := List.nodup_cons.mp hkeys
      rcases List.mem_cons.mp hs with rfl | hmem
      · refine spec_bind (ingestSource_spec hhi hutf8 (sizes s) hfile hstored batch)
          (fun batch' => ingestSources_other hhi False base₀ _ sources ?_ batch')
        intro t ht hkey
        exact hnew (List.mem_map.mpr ⟨t, ht, hkey⟩)
      · have hother : sourceKey t ≠ sourceKey s := by
          intro hkey
          exact hnew (List.mem_map.mpr ⟨s, hmem, hkey.symm⟩)
        exact spec_bind (ingestSource_other hhi hother True base₀ _ _ _ batch)
          (fun batch' => ih hkeys hmem batch')

variable (fmt minTsNanos s) in
/-- A source as a call finds it. -/
structure Found (file : List UInt8) (hi : Nat) (truncated : Prop) (base₀ : List UInt8)
    (st : Store ix) : Prop where
  holds : Holds s st (textLines base₀).length hi (docsAt fmt minTsNanos s base₀)
  tracked : Tracked s st base₀ ∨ (truncated ∧ base₀ = [])
  within : base₀ <+: file
  finished : rest newline base₀ = []
  stored : storedCursor st.sources s = cursorAt base₀
    ∨ (file.length < (storedCursor st.sources s).offset ∧ base₀ = [])

/-- Nothing is pending after a flush. -/
theorem progress_done (h : Progress fmt minTsNanos s file hi truncated base₀ batch base base st) :
    Progress fmt minTsNanos s file hi truncated base₀ .empty base base st :=
  ⟨h.holds, h.tracked, h.settled, h.finished, h.grown, h.within, h.viewFinished,
    (docsBetween_self base).symm, Or.inl ⟨List.not_mem_nil, rfl⟩,
    fun _ hmem => (nomatch hmem), batchOk_empty⟩

theorem Found.start (h : Found fmt minTsNanos s file hi truncated base₀ st) :
    Progress fmt minTsNanos s file hi truncated base₀ .empty base₀ base₀ st :=
  ⟨h.holds, h.tracked, Or.inl rfl, h.finished, List.prefix_rfl, h.within, h.finished,
    (docsBetween_self base₀).symm, Or.inl ⟨List.not_mem_nil, rfl⟩,
    fun _ hmem => (nomatch hmem), batchOk_empty⟩

/-- **AN INGEST OF THE SOURCE**: stopped, it leaves a sound state; at its end the
    index has the whole file. -/
theorem ingestSourcesAfter_spec (hhi : (textLines file).length ≤ hi)
    (hutf8 : isUtf8 (completePart newline file) = true) (hfile : fileBytes files s = file)
    {sources : List LogSource} (hkeys : (sources.map sourceKey).Nodup) (hs : s ∈ sources) :
    Spec (Stopped fmt minTsNanos s ix file hi truncated)
      (Found fmt minTsNanos s file hi truncated base₀)
      (ingestSourcesAfter fmt minTsNanos sizes files sources)
      (fun _ => Progress fmt minTsNanos s file hi truncated base₀ .empty
        (completePart newline file) (completePart newline file)) := by
  refine spec_state ?_
  intro st h
  rw [ingestSourcesAfter, if_neg (List.ne_nil_of_mem hs)]
  refine spec_bind (Q := fun cursors st' => cursors = st ∧ st' = st) (spec_read ?_) (fun cursors => ?_)
  · rintro st' rfl
    exact ⟨rfl, rfl⟩
  refine spec_state ?_
  rintro st' ⟨rfl, rfl⟩
  refine spec_bind (spec_conseq
    (ingestSources_spec hhi hutf8 hfile h.stored sources hkeys hs .empty) ?_ (fun _ _ h => h))
    (fun batch => spec_state ?_)
  · rintro st' rfl
    exact ⟨base₀, h.start, fun _ => List.not_mem_nil⟩
  rintro st' ⟨base, hprogress, -⟩
  refine spec_bind (spec_conseq
    (commitIngestBatch_spec hhi batch base₀ base (completePart newline file)) ?_
    (fun _ _ h => h)) (fun batch' => spec_pure ?_)
  · rintro _ rfl
    exact hprogress
  · rintro _ ⟨hdone, -, -⟩
    exact progress_done hdone

/-! ## A call for other sources -/

/-- Nothing in the batch is about the source. -/
structure Apart (s : LogSource) (batch : IngestBatch) : Prop where
  keys : sourceKey s ∉ updateKeys batch
  updates : ∀ update ∈ batch.pendingUpdates,
    ¬ (update.runId = s.runId ∧ update.service = s.service)
  docs : ∀ d ∈ batch.pendingDocs, ¬ (d.runId = s.runId ∧ d.service = s.service)

theorem apart_empty : Apart s .empty :=
  ⟨List.not_mem_nil, fun _ hmem => (nomatch hmem), fun _ hmem => (nomatch hmem)⟩

variable (s ix) in
/-- What the index holds of the source, its cursor in the process, and the one in
    the file: still `saved`, or that of the process. -/
structure Kept (n hi : Nat) (docs : List PendingDoc) (cursor saved : IngestCursor)
    (st : Store ix) : Prop where
  holds : Holds s st n hi docs
  memory : storedCursor st.sources s = cursor
  file : storedCursor st.savedSources s = saved ∨ storedCursor st.savedSources s = cursor

variable {n : Nat} {docs : List PendingDoc} {cursor saved : IngestCursor}

theorem Apart.ops (h : Apart s batch) : ∀ op ∈ batchOps batch, Beyond s n hi op := by
  intro op hop
  rcases List.mem_append.mp hop with hop | hop
  · obtain ⟨update, hmem, hop⟩ := List.mem_filterMap.mp hop
    obtain ⟨fromSeq, -, rfl⟩ := Option.map_eq_some_iff.mp hop
    exact fun hids => absurd hids (h.updates update hmem)
  · obtain ⟨doc, hmem, rfl⟩ := List.mem_map.mp hop
    exact fun hids => absurd hids (h.docs doc hmem)

theorem commitIngestBatch_keeps (batch : IngestBatch) (hbatch : Apart s batch) :
    Spec (Kept s ix n hi docs cursor saved) (Kept s ix n hi docs cursor saved)
      (commitIngestBatch batch)
      (fun batch' st' => Apart s batch' ∧ Kept s ix n hi docs cursor saved st') := by
  refine spec_state ?_
  intro st h
  have hops : ∀ op ∈ batchOps batch, Beyond s n hi op := hbatch.ops
  have hpart : ∀ pre, pre <+: batchOps batch →
      Kept s ix n hi docs cursor saved { st with queue := st.queue ++ pre } :=
    fun pre hpre => ⟨h.holds.queue (fun op hop => hops op (hpre.subset hop)), h.memory, h.file⟩
  have hcommit : Kept s ix n hi docs cursor saved (committed st batch) :=
    ⟨(h.holds.queue hops).commit, h.memory, h.file⟩
  refine spec_ite (fun _ => spec_pure ?_) (fun _ => ?_)
  · rintro st' rfl
    exact ⟨hbatch, h⟩
  refine spec_bind (queueAll_spec _ st ?_) (fun _ => ?_)
  · exact fun pre hpre => hpart pre (hpre.trans (List.prefix_append _ _))
  refine spec_bind (queueAll_spec _ _ ?_) (fun _ => ?_)
  · intro pre hpre
    dsimp only
    rw [List.append_assoc]
    exact hpart _ ((List.prefix_append_right_inj _).mpr hpre)
  refine spec_bind (Q := fun _ => Kept s ix n hi docs cursor saved) (spec_act ?_ ?_) (fun _ => ?_)
  · rintro st' rfl
    rw [List.append_assoc]
    exact hpart _ List.prefix_rfl
  · rintro st' rfl
    rw [List.append_assoc]
    exact hcommit
  refine spec_bind (Q := fun _ => Kept s ix n hi docs cursor saved) (spec_act (fun _ h => h) (fun _ h => h))
    (fun _ => ?_)
  refine spec_bind (Q := fun _ => Kept s ix n hi docs cursor saved)
    (spec_act (fun _ h => h) ?_) (fun _ => ?_)
  · rintro st' ⟨hheld, hcursor, hsaved⟩
    refine ⟨⟨hheld.docs, hheld.bounded, hheld.queued⟩, ?_, hsaved⟩
    rw [Store.storeCursors, storedCursor, applyUpdates_of_not_mem _ hbatch.keys]
    exact hcursor
  refine spec_bind (Q := fun _ => Kept s ix n hi docs cursor saved)
    (spec_act (fun _ h => h) ?_) (fun _ => ?_)
  · rintro st' ⟨hheld, hcursor, -⟩
    exact ⟨⟨hheld.docs, hheld.bounded, hheld.queued⟩, hcursor, Or.inr hcursor⟩
  exact spec_pure (fun _ h => ⟨apart_empty, h⟩)

theorem readChunk_keeps {t : LogSource} (ht : sourceKey t ≠ sourceKey s) (size : Nat)
    (loop : Reader) (hbatch : Apart s loop.batch) :
    Spec (Kept s ix n hi docs cursor saved) (Kept s ix n hi docs cursor saved)
      (readChunk fmt minTsNanos t size loop)
      (fun loop' st' => Apart s loop'.batch ∧ Kept s ix n hi docs cursor saved st') := by
  refine spec_bind (Q := fun _ => Kept s ix n hi docs cursor saved) (spec_act (fun _ h => h) (fun _ h => h))
    (fun _ => ?_)
  refine spec_ite (fun _ => spec_pure (fun _ h => ⟨hbatch, h⟩)) (fun hnone => ?_)
  obtain ⟨-, hupdates, hdocs⟩ := advance_after fmt minTsNanos t loop.cursor loop.deleteFromSeq
    (rest_completePart newline _) hnone loop.batch
  have hother : ¬ (t.runId = s.runId ∧ t.service = s.service) := by
    rintro ⟨hrun, hservice⟩
    exact ht (by rw [sourceKey, sourceKey, hrun, hservice])
  have hadvanced : Apart s (advance fmt minTsNanos t loop.cursor loop.deleteFromSeq
      (completePart newline (loop.carry ++ loop.remaining.take size)) loop.batch).2 := by
    refine ⟨?_, ?_, ?_⟩
    · intro hmem
      rw [updateKeys, hupdates, recordUpdate_keys] at hmem
      split at hmem
      · exact hbatch.keys hmem
      · rcases List.mem_append.mp hmem with hmem | hmem
        · exact hbatch.keys hmem
        · exact ht (List.mem_singleton.mp hmem).symm
    · intro update hmem hids
      rw [hupdates] at hmem
      rcases mem_recordUpdate hmem with rfl | ⟨update', hmem', -, hrun, hservice⟩
      · exact hother hids
      · exact hbatch.updates update' hmem' ⟨hrun.symm.trans hids.1, hservice.symm.trans hids.2⟩
    · intro d hmem hids
      rw [hdocs] at hmem
      rcases List.mem_append.mp hmem with hmem | hmem
      · exact hbatch.docs d hmem hids
      · obtain ⟨hrun, hservice, -⟩ := docsFrom_mem fmt t (List.mem_of_mem_filter hmem)
        exact hother ⟨hrun.symm.trans hids.1, hservice.symm.trans hids.2⟩
  refine spec_bind (Q := fun batch' st' => Apart s batch' ∧ Kept s ix n hi docs cursor saved st') ?_
    (fun batch' => spec_pure (fun _ h => h))
  exact spec_ite (fun _ => commitIngestBatch_keeps _ hadvanced)
    (fun _ => spec_pure (fun _ h => ⟨hadvanced, h⟩))

theorem readLoop_keeps {t : LogSource} (ht : sourceKey t ≠ sourceKey s) (sizes : Nat → Nat)
    (fuel i : Nat) (loop : Reader) (hbatch : Apart s loop.batch) :
    Spec (Kept s ix n hi docs cursor saved) (Kept s ix n hi docs cursor saved)
      (readLoop fmt minTsNanos t sizes fuel i loop)
      (fun loop' st' => Apart s loop'.batch ∧ Kept s ix n hi docs cursor saved st') := by
  induction fuel generalizing i loop with
  | zero => exact spec_pure (fun _ h => ⟨hbatch, h⟩)
  | succ fuel ih =>
      refine spec_ite (fun _ => spec_pure (fun _ h => ⟨hbatch, h⟩)) (fun _ => ?_)
      refine spec_bind (readChunk_keeps ht (readSize sizes i) loop hbatch) (fun loop' => ?_)
      refine spec_state ?_
      rintro st ⟨hbatch', h⟩
      refine spec_conseq (ih (i + 1) loop' hbatch') ?_ (fun _ _ h => h)
      rintro st' rfl
      exact h

theorem ingestSource_keeps {t : LogSource} (ht : sourceKey t ≠ sourceKey s) (sizes : Nat → Nat)
    (stored : IngestCursor) (bytes : Option (List UInt8)) (batch : IngestBatch)
    (hbatch : Apart s batch) :
    Spec (Kept s ix n hi docs cursor saved) (Kept s ix n hi docs cursor saved)
      (ingestSource fmt minTsNanos t sizes stored bytes batch)
      (fun batch' st' => Apart s batch' ∧ Kept s ix n hi docs cursor saved st') := by
  cases bytes with
  | none => exact spec_pure (fun _ h => ⟨hbatch, h⟩)
  | some bytes =>
      refine spec_ite (fun _ => spec_pure (fun _ h => ⟨hbatch, h⟩)) (fun _ => ?_)
      refine spec_bind (Q := fun _ => Kept s ix n hi docs cursor saved)
        (spec_act (fun _ h => h) (fun _ h => h)) (fun _ => ?_)
      refine spec_bind (Q := fun (loop : Reader) st' =>
          Apart s loop.batch ∧ Kept s ix n hi docs cursor saved st')
        ?_ (fun _ => spec_pure (fun _ h => h))
      exact readLoop_keeps ht sizes _ 0 ⟨_, _, _, _, batch⟩ hbatch

/-- **A CALL FOR OTHER SOURCES**, stopped or not, keeps what the index holds of
    this one, and its cursor. -/
theorem ingestSourcesAfter_keeps {sources : List LogSource}
    (hothers : ∀ t ∈ sources, sourceKey t ≠ sourceKey s) :
    Spec (Kept s ix n hi docs cursor saved) (Kept s ix n hi docs cursor saved)
      (ingestSourcesAfter fmt minTsNanos sizes files sources)
      (fun _ st' => Kept s ix n hi docs cursor saved st') := by
  have hsources : ∀ (cursors : BTreeMap IngestCursor) (sources : List LogSource)
      (batch : IngestBatch), (∀ t ∈ sources, sourceKey t ≠ sourceKey s) → Apart s batch →
        Spec (Kept s ix n hi docs cursor saved) (Kept s ix n hi docs cursor saved)
          (ingestSources fmt minTsNanos sizes files cursors sources batch)
          (fun batch' st' => Apart s batch' ∧ Kept s ix n hi docs cursor saved st') := by
    intro cursors sources
    induction sources with
    | nil => exact fun batch _ hbatch => spec_pure (fun _ h => ⟨hbatch, h⟩)
    | cons t sources ih =>
        intro batch hothers hbatch
        refine spec_bind (ingestSource_keeps (hothers t List.mem_cons_self) _ _ _ batch hbatch)
          (fun batch' => spec_state ?_)
        rintro st ⟨hbatch', h⟩
        refine spec_conseq
          (ih batch' (fun t ht => hothers t (List.mem_cons_of_mem _ ht)) hbatch') ?_
          (fun _ _ h => h)
        rintro st' rfl
        exact h
  refine spec_ite (fun _ => spec_pure (fun _ h => h)) (fun _ => ?_)
  refine spec_bind (Q := fun _ => Kept s ix n hi docs cursor saved) (spec_read (fun _ h => h))
    (fun st => ?_)
  refine spec_bind (hsources st.sources sources .empty hothers apart_empty)
    (fun batch => spec_state ?_)
  rintro st' ⟨hbatch, h⟩
  refine spec_bind (spec_conseq (commitIngestBatch_keeps batch hbatch) ?_ (fun _ _ h => h))
    (fun batch' => spec_pure (fun _ h => h.2))
  rintro st'' rfl
  exact h

end Source

/-! ## Without a fault a call ends -/

section Total

variable {ix : SearchIndex} (fmt : LineFormat) (minTsNanos : Option Int)

theorem queueAll_total (ops : List WriterOp) : Total (queueAll ops : Faulty (Store ix) Unit) := by
  induction ops with
  | nil => exact total_pure ()
  | cons op ops ih => exact total_bind (total_act _) (fun _ => ih)

theorem commitIngestBatch_total (batch : IngestBatch) :
    Total (commitIngestBatch batch : Faulty (Store ix) IngestBatch) := by
  refine total_ite (total_pure batch) ?_
  refine total_bind (queueAll_total _) (fun _ => ?_)
  refine total_bind (queueAll_total _) (fun _ => ?_)
  refine total_bind (total_act _) (fun _ => ?_)
  refine total_bind (total_act _) (fun _ => ?_)
  refine total_bind (total_act _) (fun _ => ?_)
  exact total_bind (total_act _) (fun _ => total_pure _)

theorem readChunk_total (t : LogSource) (size : Nat) (loop : Reader) :
    Total (readChunk fmt minTsNanos t size loop : Faulty (Store ix) Reader) := by
  refine total_bind (total_act _) (fun _ => ?_)
  refine total_ite (total_pure _) ?_
  refine total_bind ?_ (fun _ => total_pure _)
  exact total_ite (commitIngestBatch_total _) (total_pure _)

theorem readLoop_total (t : LogSource) (sizes : Nat → Nat) (fuel i : Nat) (loop : Reader) :
    Total (readLoop fmt minTsNanos t sizes fuel i loop : Faulty (Store ix) Reader) := by
  induction fuel generalizing i loop with
  | zero => exact total_pure loop
  | succ fuel ih =>
      refine total_ite (total_pure loop) ?_
      exact total_bind (readChunk_total fmt minTsNanos t _ loop) (fun loop' => ih (i + 1) loop')

theorem ingestSource_total (t : LogSource) (sizes : Nat → Nat) (stored : IngestCursor)
    (file : Option (List UInt8)) (batch : IngestBatch) :
    Total (ingestSource fmt minTsNanos t sizes stored file batch
      : Faulty (Store ix) IngestBatch) := by
  cases file with
  | none => exact total_pure batch
  | some bytes =>
      refine total_ite (total_pure batch) (total_bind (total_act _) (fun _ => ?_))
      exact total_bind (readLoop_total fmt minTsNanos t sizes _ 0 _) (fun _ => total_pure _)

theorem ingestSourcesAfter_total (sizes : LogSource → Nat → Nat)
    (files : BTreeMap (List UInt8)) (sources : List LogSource) :
    Total (ingestSourcesAfter fmt minTsNanos sizes files sources : Faulty (Store ix) Unit) := by
  have hsources : ∀ (cursors : BTreeMap IngestCursor) (sources : List LogSource)
      (batch : IngestBatch), Total (ingestSources fmt minTsNanos sizes files cursors sources batch
        : Faulty (Store ix) IngestBatch) := by
    intro cursors sources
    induction sources with
    | nil => intro batch; exact total_pure batch
    | cons t sources ih =>
        intro batch
        exact total_bind (ingestSource_total fmt minTsNanos t _ _ _ batch) ih
  refine total_ite (total_pure ()) (total_bind total_read (fun st => ?_))
  refine total_bind (hsources st.sources sources .empty) (fun batch => ?_)
  exact total_bind (commitIngestBatch_total batch) (fun _ => total_pure ())

end Total

end DevstackIngestRecovery
