import Devstack.IngestRecovery

/-! # Runs of ingests — growth, faults, restarts, truncation

    A run is a list of actions: writers append to the logs or truncate them, an
    ingest of some sources runs and may be stopped by a fault before any of its
    steps, the process goes on or the index is opened again.

    Along every run of growing logs every source stays sound, so an ingest
    without a fault leaves the documents of its file, each line once:
    `ingest_crash_consistent`.  They and the cursor depend on the file only, not
    on the ingests before: `ingest_independent_of_schedule`.

    Truncation is another matter: the reset of the cursor is stored only
    with a complete line (`truncated_to_nothing`, `truncation_handled_along`). -/

namespace DevstackIngestRuns

open DevstackModel DevstackLines DevstackLossyUtf8 DevstackFaults DevstackIngestFaults
open DevstackIngestPending DevstackIngestRecovery DevstackMachine
open DevstackIngest hiding commitIngestBatch readChunk readLoop ingestSource ingestSourcesAfter
open DevstackIngestExact hiding World World.start Action step ingested

variable (ix : SearchIndex) (fmt : LineFormat) (minTsNanos : Option Int) (cat : Catalogue)

structure World where
  files : BTreeMap (List UInt8)
  store : Store ix

/-- The world before the first ingest. -/
def World.start (files : BTreeMap (List UInt8)) : World ix := ⟨files, ⟨ix.empty, [], ∅, ∅⟩⟩

inductive Action where
  /-- A writer appends to a log. -/
  | append (path : String) (bytes : List UInt8)
  /-- A log is cut to its first `len` bytes. -/
  | truncate (path : String) (len : Nat)
  /-- An ingest of some of the sources, stopped by a fault before its step number
      `fault`; `sizes` are the sizes its reads give. -/
  | ingest (chosen : LogSource → Bool) (sizes : LogSource → Nat → Nat) (fault : Option Nat)
  /-- After an error the writer may have lost some of what it had queued. -/
  | lose (lost : Nat → Bool)
  /-- The process is gone and the index is opened again; one that does not open is
      removed together with the cursor file. -/
  | reopen (opens : Bool)

/-- The sources an action ingests. -/
def ingested : Action → List LogSource
  | .ingest chosen _ _ => cat.sources.filter chosen
  | _ => []

variable {ix} in
/-- `open_or_create_at`. -/
def reopenStore (opens : Bool) (st : Store ix) : Store ix :=
  if opens then { st with queue := [], sources := st.savedSources } else ⟨ix.empty, [], ∅, ∅⟩

variable {ix} in
def step (w : World ix) : Action → World ix
  | .append path bytes =>
      { w with files := w.files.insert path (w.files[path]?.getD [] ++ bytes) }
  | .truncate path len =>
      match w.files[path]? with
      | some bytes => { w with files := w.files.insert path (bytes.take len) }
      | none => w
  | .ingest chosen sizes fault =>
      { w with
        store := leaves
          (ingestSourcesAfter fmt minTsNanos sizes w.files (cat.sources.filter chosen)) fault
          w.store }
  | .lose lost =>
      { w with
        store := { w.store with
          queue := (w.store.queue.zipIdx.filter (fun x => !lost x.2)).map Prod.fst } }
  | .reopen opens => { w with store := reopenStore opens w.store }

section Runs

variable {ix} {fmt minTsNanos cat}

/-- The finished lines of every log an ingest reads are valid UTF-8. -/
def ValidUtf8 (cat : Catalogue) (w : World ix) (a : Action) : Prop :=
  ∀ s ∈ ingested cat a, isUtf8 (completePart newline (fileBytes w.files s)) = true

instance (cat : Catalogue) (w : World ix) (a : Action) : Decidable (ValidUtf8 cat w a) :=
  inferInstanceAs (Decidable (∀ s ∈ _, _))

/-- Logs that only grow. -/
def Action.grows : Action → Bool
  | .truncate _ _ => false
  | _ => true

/-! ## Every source stays sound -/

variable (fmt minTsNanos) in
def SoundIn (w : World ix) (s : LogSource) : Prop :=
  Sound fmt minTsNanos s (fileBytes w.files s) (textLines (fileBytes w.files s)).length w.store

theorem sound_empty (file : List UInt8) (hi : Nat) (s : LogSource) :
    Sound fmt minTsNanos s file hi (⟨ix.empty, [], ∅, ∅⟩ : Store ix) := by
  have hcursor : storedCursor (∅ : BTreeMap IngestCursor) s = cursorAt [] := by
    show ((∅ : BTreeMap IngestCursor)[sourceKey s]?).getD .default = _
    simp [IngestCursor.default]
    rfl
  have hdocs : docsOf (ix.docs ix.empty) s = [] := by
    rw [ix.docs_empty]
    rfl
  refine ⟨[], List.nil_prefix, rfl, ⟨?_, ?_, fun _ hop => (by cases hop)⟩, hcursor, [],
    List.prefix_rfl, rfl, hcursor⟩
  · rw [hdocs]
    rfl
  · intro d hd
    rw [hdocs] at hd
    cases hd

theorem sound_start (files : BTreeMap (List UInt8)) (s : LogSource) :
    SoundIn fmt minTsNanos (World.start ix files) s := sound_empty _ _ s

theorem lines_le_append (file bytes : List UInt8) :
    (textLines file).length ≤ (textLines (file ++ bytes)).length := by
  have hprefix : completePart newline file <+: file ++ bytes :=
    List.IsPrefix.trans ⟨_, completePart_append_openPart newline file⟩ (List.prefix_append _ _)
  rw [← textLines_completePart file, lines_grown_length (rest_completePart newline file) hprefix]
  exact Nat.le_add_right _ _

theorem sound_append {w : World ix} {s : LogSource} (h : SoundIn fmt minTsNanos w s)
    (path : String) (bytes : List UInt8) :
    SoundIn fmt minTsNanos (step fmt minTsNanos cat w (.append path bytes)) s := by
  rw [SoundIn, step, fileBytes_append]
  by_cases hp : path = s.path
  · rw [if_pos hp]
    obtain ⟨base, hbase, hfin, hheld, htracked⟩ := h
    exact ⟨base, hbase.trans (List.prefix_append _ _), hfin, hheld.mono (lines_le_append _ _),
      htracked⟩
  · rw [if_neg hp]
    exact h

theorem sound_of_progress {file : List UInt8} {hi : Nat} {s : LogSource} {base₀ base view : List UInt8}
    {batch : IngestBatch} {st : Store ix}
    (h : Progress fmt minTsNanos s file hi False base₀ batch base view st) :
    Sound fmt minTsNanos s file hi st := by
  rcases h.stopped with hfalse | hsound
  · exact hfalse.elim
  · exact hsound

/-- The chosen sources have other keys than a source that is not chosen. -/
theorem other_keys {chosen : LogSource → Bool} {s : LogSource} (hs : s ∈ cat.sources)
    (hnot : chosen s = false) : ∀ t ∈ cat.sources.filter chosen, sourceKey t ≠ sourceKey s := by
  intro t ht hkey
  obtain ⟨hmem, hchosen⟩ := List.mem_filter.mp ht
  rw [List.inj_on_of_nodup_map cat.keys hmem hs hkey, hnot] at hchosen
  exact nomatch hchosen

variable (fmt minTsNanos) in
/-- An ingest that does not choose the source. -/
theorem ingest_keeps {w : World ix} {s : LogSource} (hs : s ∈ cat.sources)
    {chosen : LogSource → Bool} (hnot : chosen s = false) (sizes : LogSource → Nat → Nat)
    (fault : Option Nat) {n hi : Nat} {docs : List PendingDoc} {cursor saved : IngestCursor}
    (h : Kept s ix n hi docs cursor saved w.store) :
    Kept s ix n hi docs cursor saved
      (step fmt minTsNanos cat w (.ingest chosen sizes fault)).store :=
  (ingestSourcesAfter_keeps (other_keys hs hnot)).leaves (fun _ hkept => hkept)
    (fun _ _ hkept => hkept) fault h

theorem sound_ingest {w : World ix} {s : LogSource} (hs : s ∈ cat.sources)
    (h : SoundIn fmt minTsNanos w s) (chosen : LogSource → Bool) (sizes : LogSource → Nat → Nat)
    (fault : Option Nat) (hutf8 : ValidUtf8 cat w (.ingest chosen sizes fault)) :
    SoundIn fmt minTsNanos (step fmt minTsNanos cat w (.ingest chosen sizes fault)) s := by
  obtain ⟨base, hbase, hfin, hheld, htracked⟩ := h
  have hstopped : ∀ st : Store ix, Stopped fmt minTsNanos s ix (fileBytes w.files s)
      (textLines (fileBytes w.files s)).length False st →
        Sound fmt minTsNanos s (fileBytes w.files s) (textLines (fileBytes w.files s)).length st :=
    fun st hst => hst.resolve_left id
  by_cases hchosen : chosen s = true
  · have hmem : s ∈ cat.sources.filter chosen := List.mem_filter.mpr ⟨hs, hchosen⟩
    exact (ingestSourcesAfter_spec (Nat.le_refl _) (hutf8 s hmem) rfl (chosen_keys chosen)
      hmem).leaves hstopped (fun _ _ hdone => sound_of_progress hdone) fault
      ⟨hheld, Or.inl htracked, hbase, hfin, Or.inl htracked.memory⟩
  · obtain ⟨done, hdone, hdoneFin, hsaved⟩ := htracked.saved
    have hkept := ingest_keeps fmt minTsNanos hs (Bool.eq_false_iff.mpr hchosen) sizes fault
      ⟨hheld, htracked.memory, Or.inl hsaved⟩
    refine ⟨base, hbase, hfin, hkept.holds, hkept.memory, ?_⟩
    rcases hkept.file with hfile | hfile
    · exact ⟨done, hdone, hdoneFin, hfile⟩
    · exact ⟨base, List.prefix_rfl, hfin, hfile⟩

theorem mem_lose {queue : List WriterOp} {lost : Nat → Bool} {op : WriterOp}
    (h : op ∈ (queue.zipIdx.filter (fun x => !lost x.2)).map Prod.fst) : op ∈ queue := by
  obtain ⟨x, hx, rfl⟩ := List.mem_map.mp h
  exact List.fst_mem_of_mem_zipIdx (List.mem_of_mem_filter hx)

theorem sound_lose {w : World ix} {s : LogSource} (h : SoundIn fmt minTsNanos w s)
    (lost : Nat → Bool) : SoundIn fmt minTsNanos (step fmt minTsNanos cat w (.lose lost)) s := by
  obtain ⟨base, hbase, hfin, hheld, htracked⟩ := h
  exact ⟨base, hbase, hfin, ⟨hheld.docs, hheld.bounded, fun op hop => hheld.queued op (mem_lose hop)⟩,
    htracked.memory, htracked.saved⟩

/-- After a restart the cursor is the one of the file: below it the index is
    right all the more. -/
theorem sound_reopen {w : World ix} {s : LogSource} (h : SoundIn fmt minTsNanos w s)
    (opens : Bool) : SoundIn fmt minTsNanos (step fmt minTsNanos cat w (.reopen opens)) s := by
  cases opens with
  | false => exact sound_empty _ _ s
  | true =>
      obtain ⟨base, hbase, hfin, hheld, -, done, hdone, hdoneFin, hsaved⟩ := h
      refine ⟨done, hdone.trans hbase, hdoneFin, ⟨?_, hheld.bounded, fun _ hop => (nomatch hop)⟩,
        hsaved, done, List.prefix_rfl, hdoneFin, hsaved⟩
      have hle : (textLines done).length ≤ (textLines base).length := by
        rw [lines_grown_length hdoneFin hdone]
        exact Nat.le_add_right _ _
      show below _ (docsOf (ix.docs w.store.index) s) = _
      rw [← below_below hle, hheld.docs, below_docsAt hdoneFin hdone]

/-- **EVERY STEP** of a run of growing logs keeps every source sound. -/
theorem sound_step {w : World ix} {s : LogSource} (hs : s ∈ cat.sources)
    (h : SoundIn fmt minTsNanos w s) (a : Action) (hgrows : a.grows = true)
    (hutf8 : ValidUtf8 cat w a) : SoundIn fmt minTsNanos (step fmt minTsNanos cat w a) s := by
  cases a with
  | append path bytes => exact sound_append h path bytes
  | truncate path len => exact nomatch hgrows
  | ingest chosen sizes fault => exact sound_ingest hs h chosen sizes fault hutf8
  | lose lost => exact sound_lose h lost
  | reopen opens => exact sound_reopen h opens

theorem sound_run (files : BTreeMap (List UInt8)) {s : LogSource} (hs : s ∈ cat.sources)
    (actions : List Action) (hgrows : ∀ a ∈ actions, a.grows = true)
    (hutf8 : Along (step fmt minTsNanos cat) (ValidUtf8 cat) (World.start ix files) actions) :
    SoundIn fmt minTsNanos (run (step fmt minTsNanos cat) (World.start ix files) actions) s := by
  have hstep : ∀ (w : World ix) (a : Action), SoundIn fmt minTsNanos w s →
      a.grows = true ∧ ValidUtf8 cat w a → SoundIn fmt minTsNanos (step fmt minTsNanos cat w a) s :=
    fun w a h hok => sound_step hs h a hok.1 hok.2
  exact guarded_invariant (step fmt minTsNanos cat) hstep actions _ (sound_start files s)
    (along_and _ (along_of_forall _ hgrows _) hutf8)

/-! ## An ingest without a fault -/

/-- The documents of the source are exactly those of the lines of its file, and
    nothing else of it is queued; its cursor stands behind them. -/
theorem ingest_whole {w : World ix} {s : LogSource} (h : SoundIn fmt minTsNanos w s)
    {chosen : LogSource → Bool} (sizes : LogSource → Nat → Nat)
    (hs : s ∈ cat.sources.filter chosen)
    (hutf8 : isUtf8 (completePart newline (fileBytes w.files s)) = true) :
    let after := step fmt minTsNanos cat w (.ingest chosen sizes none)
    let n := (textLines (fileBytes w.files s)).length
    Holds s after.store n n (kept minTsNanos (docsFrom fmt s 0 (textLines (fileBytes w.files s))))
      ∧ storedCursor after.store.sources s
        = cursorAt (completePart newline (fileBytes w.files s)) := by
  intro after n
  obtain ⟨base, hbase, hfin, hheld, htracked⟩ := h
  have hfound : Found fmt minTsNanos s (fileBytes w.files s)
      (textLines (fileBytes w.files s)).length False base w.store :=
    ⟨hheld, Or.inl htracked, hbase, hfin, Or.inl htracked.memory⟩
  obtain ⟨-, hdone⟩ := Spec.completes
    (ingestSourcesAfter_spec (Nat.le_refl _) hutf8 rfl (chosen_keys chosen) hs)
    (ingestSourcesAfter_total fmt minTsNanos sizes w.files (cat.sources.filter chosen)) hfound
  have hwhole := hdone.holds
  rw [docsAt, textLines_completePart] at hwhole
  refine ⟨hwhole, ?_⟩
  rcases hdone.tracked with htracked | ⟨hfalse, -⟩
  · exact htracked.memory
  · exact hfalse.elim

/-- What leaves the documents of a source alone: anything but an ingest of it and
    the loss of the whole index. -/
def Action.leaves (s : LogSource) : Action → Bool
  | .ingest chosen _ _ => !chosen s
  | .reopen opens => opens
  | _ => true

theorem holds_step {w : World ix} {s : LogSource} (hs : s ∈ cat.sources) {n : Nat}
    {docs : List PendingDoc} (h : Holds s w.store n n docs) {a : Action}
    (ha : a.leaves s = true) : Holds s (step fmt minTsNanos cat w a).store n n docs := by
  cases a with
  | append path bytes => exact h
  | truncate path len =>
      show Holds s (match w.files[path]? with
        | some bytes => _
        | none => w).store n n docs
      cases w.files[path]? with
      | none => exact h
      | some bytes => exact h
  | ingest chosen sizes fault =>
      exact (ingest_keeps fmt minTsNanos hs ((Bool.not_eq_true' _).mp ha) sizes fault
        ⟨h, rfl, Or.inl rfl⟩).holds
  | lose lost => exact ⟨h.docs, h.bounded, fun op hop => h.queued op (mem_lose hop)⟩
  | reopen opens =>
      obtain rfl : opens = true := ha
      exact ⟨h.docs, h.bounded, fun _ hop => (nomatch hop)⟩

/-- **CRASH CONSISTENCY**: whatever happened before, ingests stopped anywhere and
    restarts included, after an ingest that meets no fault the index holds every
    finished non-blank line of each ingested log once, until that log is ingested
    again. -/
theorem ingest_crash_consistent (ix : SearchIndex) (fmt : LineFormat) (cat : Catalogue)
    (files : BTreeMap (List UInt8)) (before after : List Action) (chosen : LogSource → Bool)
    (sizes : LogSource → Nat → Nat) {s : LogSource} (hs : s ∈ cat.sources.filter chosen)
    (hgrows : ∀ a ∈ before, a.grows = true) (hafter : ∀ a ∈ after, a.leaves s = true)
    (hutf8 : Along (step fmt none cat) (ValidUtf8 cat) (World.start ix files)
      (before ++ [.ingest chosen sizes none])) :
    let w := run (step fmt none cat) (World.start ix files) before
    docsOf (ix.docs (run (step fmt none cat) w (.ingest chosen sizes none :: after)).store.index) s
      = docsFrom fmt s 0 (textLines (fileBytes w.files s)) := by
  intro w
  obtain ⟨hbefore, hingest, -⟩ := (along_append _ _ _ _ _).mp hutf8
  have hmem := List.mem_of_mem_filter hs
  have hwhole := ingest_whole (sound_run files hmem before hgrows hbefore) sizes hs (hingest s hs)
  rw [kept_none] at hwhole
  have hstep : ∀ (w' : World ix) (a : Action),
      Holds s w'.store (textLines (fileBytes w.files s)).length
        (textLines (fileBytes w.files s)).length
        (docsFrom fmt s 0 (textLines (fileBytes w.files s))) →
      a.leaves s = true →
      Holds s (step fmt none cat w' a).store (textLines (fileBytes w.files s)).length
        (textLines (fileBytes w.files s)).length
        (docsFrom fmt s 0 (textLines (fileBytes w.files s))) :=
    fun w' a h ha => holds_step hmem h ha
  exact (guarded_invariant (step fmt none cat) hstep after _ hwhole.1
    (along_of_forall _ hafter _)).docsOf

/-- Two lines are ingested, the process dies before the commit, the index is opened
    again and the log is ingested again while a third line is being written. -/
theorem ingest_crash_consistent_web :
    let w := run (step plainFormat none webCatalogue) (World.start listIndex ∅)
      [.append "/logs/web.log" [0x61, 0x0A, 0x62, 0x0A],
        .ingest (fun _ => true) (fun _ _ => 3) (some 5), .reopen true]
    docsOf (listIndex.docs (run (step plainFormat none webCatalogue) w
        [.ingest (fun _ => true) (fun _ _ => 2) none,
          .append "/logs/web.log" [0x63]]).store.index) webSource
      = docsFrom plainFormat webSource 0 (textLines (fileBytes w.files webSource)) :=
  ingest_crash_consistent listIndex plainFormat webCatalogue ∅
    [.append "/logs/web.log" [0x61, 0x0A, 0x62, 0x0A],
      .ingest (fun _ => true) (fun _ _ => 3) (some 5), .reopen true]
    [.append "/logs/web.log" [0x63]] (fun _ => true) (fun _ _ => 2)
    (by decide) (by decide) (by decide) (by decide)

/-! ## The schedule does not matter -/

/-- What concerns other sources only. -/
def Action.elsewhere (s : LogSource) : Action → Bool
  | .append path _ => decide (path ≠ s.path)
  | .truncate path _ => decide (path ≠ s.path)
  | .ingest chosen _ _ => !chosen s
  | .lose _ => true
  | .reopen _ => false

/-- The last ingest of the source met no fault and read the whole log. -/
def CaughtUp (s : LogSource) (actions : List Action) : Prop :=
  ∃ before chosen sizes after, actions = before ++ .ingest chosen sizes none :: after
    ∧ chosen s = true ∧ ∀ a ∈ after, a.elsewhere s = true

/-- What an ingest without a fault leaves of a source, in terms of its log. -/
def WholeIn (fmt : LineFormat) (minTsNanos : Option Int) (s : LogSource) (w : World ix) : Prop :=
  Holds s w.store (textLines (fileBytes w.files s)).length
      (textLines (fileBytes w.files s)).length
      (kept minTsNanos (docsFrom fmt s 0 (textLines (fileBytes w.files s))))
    ∧ storedCursor w.store.sources s = cursorAt (completePart newline (fileBytes w.files s))

theorem whole_step {w : World ix} {s : LogSource} (hs : s ∈ cat.sources)
    (h : WholeIn fmt minTsNanos s w) {a : Action} (ha : a.elsewhere s = true) :
    WholeIn fmt minTsNanos s (step fmt minTsNanos cat w a) := by
  cases a with
  | append path bytes =>
      rw [WholeIn, step, fileBytes_append, if_neg (of_decide_eq_true ha)]
      exact h
  | truncate path len =>
      have hpath : path ≠ s.path := of_decide_eq_true ha
      rw [step]
      cases w.files[path]? with
      | none => exact h
      | some bytes =>
          have hfile : fileBytes (w.files.insert path (bytes.take len)) s = fileBytes w.files s := by
            simp [fileBytes, Std.ExtTreeMap.getElem?_insert, hpath]
          rw [WholeIn, hfile]
          exact h
  | ingest chosen sizes fault =>
      have hkept := ingest_keeps fmt minTsNanos hs
        ((Bool.not_eq_true' _).mp ha) sizes fault ⟨h.1, h.2, Or.inl rfl⟩
      exact ⟨hkept.holds, hkept.memory⟩
  | lose lost =>
      exact ⟨⟨h.1.docs, h.1.bounded, fun op hop => h.1.queued op (mem_lose hop)⟩, h.2⟩
  | reopen opens => cases ha

/-- After a run that has caught up with the log, documents and cursor are those
    of the log. -/
theorem whole_of_caughtUp (files : BTreeMap (List UInt8)) {s : LogSource} (hs : s ∈ cat.sources)
    {actions : List Action} (hgrows : ∀ a ∈ actions, a.grows = true)
    (hutf8 : Along (step fmt minTsNanos cat) (ValidUtf8 cat) (World.start ix files) actions)
    (hlast : CaughtUp s actions) :
    WholeIn fmt minTsNanos s
      (run (step fmt minTsNanos cat) (World.start ix files) actions) := by
  obtain ⟨before, chosen, sizes, after, rfl, hchosen, hafter⟩ := hlast
  obtain ⟨hbefore, hingest, -⟩ := (along_append _ _ _ _ _).mp hutf8
  have hmem : s ∈ cat.sources.filter chosen := List.mem_filter.mpr ⟨hs, hchosen⟩
  have hsound := sound_run files hs before
    (fun a ha => hgrows a (List.mem_append_left _ ha)) hbefore
  have hstep : ∀ (w : World ix) (a : Action), WholeIn fmt minTsNanos s w →
      a.elsewhere s = true → WholeIn fmt minTsNanos s (step fmt minTsNanos cat w a) :=
    fun w a h ha => whole_step hs h ha
  rw [run_append]
  exact guarded_invariant (step fmt minTsNanos cat) hstep after _
    (ingest_whole hsound sizes hmem (hingest s hmem)) (along_of_forall _ hafter _)

/-- **THE SCHEDULE DOES NOT MATTER**: two runs that have caught up with the same
    log leave the same documents and the same cursor, whatever the sizes of the
    reads, the ingests before, their faults, and the other sources. -/
theorem ingest_independent_of_schedule (ix : SearchIndex) (fmt : LineFormat)
    (minTsNanos : Option Int) (cat cat' : Catalogue) {s : LogSource} (hs : s ∈ cat.sources)
    (hs' : s ∈ cat'.sources) (files files' : BTreeMap (List UInt8)) (as bs : List Action)
    (hgrows : ∀ a ∈ as, a.grows = true) (hgrows' : ∀ a ∈ bs, a.grows = true)
    (hutf8 : Along (step fmt minTsNanos cat) (ValidUtf8 cat) (World.start ix files) as)
    (hutf8' : Along (step fmt minTsNanos cat') (ValidUtf8 cat') (World.start ix files') bs)
    (hlast : CaughtUp s as) (hlast' : CaughtUp s bs) :
    let w := run (step fmt minTsNanos cat) (World.start ix files) as
    let w' := run (step fmt minTsNanos cat') (World.start ix files') bs
    fileBytes w.files s = fileBytes w'.files s →
      docsOf (ix.docs w.store.index) s = docsOf (ix.docs w'.store.index) s
        ∧ storedCursor w.store.sources s = storedCursor w'.store.sources s := by
  intro w w' hfile
  have hw : WholeIn fmt minTsNanos s w := whole_of_caughtUp files hs hgrows hutf8 hlast
  have hw' : WholeIn fmt minTsNanos s w' := whole_of_caughtUp files' hs' hgrows' hutf8' hlast'
  rw [WholeIn, hfile] at hw
  exact ⟨hw.1.docsOf.trans hw'.1.docsOf.symm, hw.2.trans hw'.2.symm⟩

/-- The same two lines in one ingest, and in two that cut a line. -/
theorem ingest_independent_of_schedule_web :
    let w := run (step plainFormat none webCatalogue) (World.start listIndex ∅)
      [.append "/logs/web.log" [0x61, 0x0A, 0x62, 0x0A],
        .ingest (fun _ => true) (fun _ _ => 4) none]
    let w' := run (step plainFormat none webCatalogue) (World.start listIndex ∅)
      [.append "/logs/web.log" [0x61], .ingest (fun _ => true) (fun _ _ => 1) none,
        .append "/logs/web.log" [0x0A, 0x62, 0x0A], .ingest (fun _ => true) (fun _ _ => 1) none]
    docsOf (listIndex.docs w.store.index) webSource
        = docsOf (listIndex.docs w'.store.index) webSource
      ∧ storedCursor w.store.sources webSource = storedCursor w'.store.sources webSource :=
  ingest_independent_of_schedule listIndex plainFormat none webCatalogue webCatalogue
    (by decide) (by decide) ∅ ∅
    [.append "/logs/web.log" [0x61, 0x0A, 0x62, 0x0A],
      .ingest (fun _ => true) (fun _ _ => 4) none]
    [.append "/logs/web.log" [0x61], .ingest (fun _ => true) (fun _ _ => 1) none,
      .append "/logs/web.log" [0x0A, 0x62, 0x0A], .ingest (fun _ => true) (fun _ _ => 1) none]
    (by decide) (by decide) (by decide) (by decide)
    ⟨[.append "/logs/web.log" [0x61, 0x0A, 0x62, 0x0A]], fun _ => true, fun _ _ => 4, [], rfl, rfl,
      fun _ ha => (nomatch ha)⟩
    ⟨[.append "/logs/web.log" [0x61], .ingest (fun _ => true) (fun _ _ => 1) none,
        .append "/logs/web.log" [0x0A, 0x62, 0x0A]], fun _ => true, fun _ _ => 1, [], rfl, rfl,
      fun _ ha => (nomatch ha)⟩
    (by decide)

/-! ## Truncation -/

/-- Appends, truncations and ingests without faults, of a log that is valid UTF-8
    where an ingest reads it: a log cut below its cursor does not grow back to it
    before an ingest has seen it. -/
def Observed (s : LogSource) (w : World ix) : Action → Prop
  | .append path bytes => path = s.path →
      (fileBytes w.files s).length < (storedCursor w.store.sources s).offset →
        (fileBytes w.files s ++ bytes).length < (storedCursor w.store.sources s).offset
  | .truncate _ _ => True
  | .ingest chosen _ fault => fault = none ∧
      (chosen s = true → isUtf8 (completePart newline (fileBytes w.files s)) = true)
  | .lose _ => False
  | .reopen _ => False

instance (s : LogSource) (w : World ix) : ∀ a : Action, Decidable (Observed s w a)
  | .append _ _ => inferInstanceAs (Decidable (_ → _ → _))
  | .truncate _ _ => inferInstanceAs (Decidable True)
  | .ingest _ _ _ => inferInstanceAs (Decidable (_ ∧ _))
  | .lose _ => inferInstanceAs (Decidable False)
  | .reopen _ => inferInstanceAs (Decidable False)

/-- An ingest that finds the log shorter than its cursor finds a line break in it. -/
def LineAtReset (s : LogSource) (w : World ix) : Action → Prop
  | .ingest chosen _ _ => chosen s = true →
      (fileBytes w.files s).length < (storedCursor w.store.sources s).offset →
        newline ∈ fileBytes w.files s
  | _ => True

instance (s : LogSource) (w : World ix) : ∀ a : Action, Decidable (LineAtReset s w a)
  | .ingest _ _ _ => inferInstanceAs (Decidable (_ → _ → _))
  | .append _ _ => inferInstanceAs (Decidable True)
  | .truncate _ _ => inferInstanceAs (Decidable True)
  | .lose _ => inferInstanceAs (Decidable True)
  | .reopen _ => inferInstanceAs (Decidable True)

variable (fmt cat) in
/-- After an ingest of the log the index has its lines, once each. -/
def LinesOnce (s : LogSource) (w : World ix) (a : Action) : Prop :=
  s ∈ ingested cat a → docsOf (ix.docs (step fmt none cat w a).store.index) s
    = docsFrom fmt s 0 (textLines (fileBytes (step fmt none cat w a).files s))

variable (fmt) in
/-- The index has exactly the part of the log behind which the cursor stands, or
    that part is longer than the log. -/
def Follows (s : LogSource) (w : World ix) : Prop :=
  ∃ base, rest newline base = [] ∧ Settled fmt none s w.store base ∧ Tracked s w.store base
    ∧ (base <+: fileBytes w.files s ∨ (fileBytes w.files s).length < base.length)

theorem follows_start (files : BTreeMap (List UInt8)) (s : LogSource) :
    Follows fmt s (World.start ix files) := by
  have hsound : Sound fmt none s [] 0 (⟨ix.empty, [], ∅, ∅⟩ : Store ix) := sound_empty [] 0 s
  obtain ⟨base, hbase, hfin, hheld, htracked⟩ := hsound
  obtain rfl : base = [] := List.prefix_nil.mp hbase
  exact ⟨[], hfin, hheld, htracked, Or.inl List.nil_prefix⟩

theorem follows_files {w : World ix} {s : LogSource} {files : BTreeMap (List UInt8)}
    (h : Follows fmt s w)
    (hfiles : ∀ base : List UInt8, storedCursor w.store.sources s = cursorAt base →
      (base <+: fileBytes w.files s ∨ (fileBytes w.files s).length < base.length) →
        base <+: fileBytes files s ∨ (fileBytes files s).length < base.length) :
    Follows fmt s { w with files := files } := by
  obtain ⟨base, hfin, hsettled, htracked, hbase⟩ := h
  exact ⟨base, hfin, hsettled, htracked, hfiles base htracked.memory hbase⟩

theorem follows_append {w : World ix} {s : LogSource} (h : Follows fmt s w) {path : String}
    {bytes : List UInt8} (hok : Observed s w (.append path bytes)) :
    Follows fmt s (step fmt none cat w (.append path bytes)) := by
  refine follows_files h ?_
  intro base hcursor hbase
  rw [fileBytes_append]
  by_cases hp : path = s.path
  · rw [if_pos hp]
    rcases hbase with hbase | hshort
    · exact Or.inl (hbase.trans (List.prefix_append _ _))
    · have hseen := hok hp
      rw [hcursor] at hseen
      exact Or.inr (hseen hshort)
  · rw [if_neg hp]
    exact hbase

/-- A cut leaves the part that was ingested whole, or makes the log shorter than it. -/
theorem follows_truncate {w : World ix} {s : LogSource} (h : Follows fmt s w) (path : String)
    (len : Nat) : Follows fmt s (step fmt none cat w (.truncate path len)) := by
  rw [step]
  cases hpath : w.files[path]? with
  | none => exact h
  | some bytes =>
      refine follows_files h ?_
      intro base _ hbase
      by_cases hp : path = s.path
      · subst hp
        have hold : fileBytes w.files s = bytes := by rw [fileBytes, hpath]; rfl
        have hnew : fileBytes (w.files.insert s.path (bytes.take len)) s = bytes.take len := by
          simp [fileBytes]
        rw [hold] at hbase
        rw [hnew, List.length_take]
        rcases hbase with ⟨more, rfl⟩ | hshort
        · by_cases hlen : base.length ≤ len
          · refine Or.inl ?_
            rw [List.take_append, List.take_of_length_le hlen]
            exact List.prefix_append _ _
          · exact Or.inr (by omega)
        · exact Or.inr (by omega)
      · have hsame : fileBytes (w.files.insert path (bytes.take len)) s = fileBytes w.files s := by
          simp [fileBytes, Std.ExtTreeMap.getElem?_insert, hp]
        rw [hsame]
        exact hbase

/-- **AN INGEST OF A LOG THAT MAY HAVE BEEN CUT**: with a line break in the log the
    reset takes effect, and the index has the whole log afterwards. -/
theorem ingest_after_cut {w : World ix} {s : LogSource} (h : Follows fmt s w)
    {chosen : LogSource → Bool} (sizes : LogSource → Nat → Nat)
    (hs : s ∈ cat.sources.filter chosen)
    (hutf8 : isUtf8 (completePart newline (fileBytes w.files s)) = true)
    (hline : (fileBytes w.files s).length < (storedCursor w.store.sources s).offset →
      newline ∈ fileBytes w.files s) :
    let after := step fmt none cat w (.ingest chosen sizes none)
    Settled fmt none s after.store (completePart newline (fileBytes w.files s))
      ∧ Tracked s after.store (completePart newline (fileBytes w.files s)) := by
  intro after
  obtain ⟨base, hfin, hsettled, htracked, hbase⟩ := h
  rcases hbase with hbase | hshort
  · have hle : (textLines base).length ≤ (textLines (fileBytes w.files s)).length := by
      rw [lines_grown_length hfin hbase]
      exact Nat.le_add_right _ _
    have hfound : Found fmt none s (fileBytes w.files s) (textLines (fileBytes w.files s)).length
        False base w.store :=
      ⟨Holds.mono hsettled hle, Or.inl htracked, hbase, hfin, Or.inl htracked.memory⟩
    obtain ⟨-, hdone⟩ := Spec.completes
      (ingestSourcesAfter_spec (Nat.le_refl _) hutf8 rfl (chosen_keys chosen) hs)
      (ingestSourcesAfter_total fmt none sizes w.files (cat.sources.filter chosen)) hfound
    have hheld := hdone.holds
    rw [← textLines_completePart (fileBytes w.files s)] at hheld
    exact ⟨hheld, hdone.tracked.resolve_right (fun hfalse => hfalse.1)⟩
  · -- the ingest starts afresh: nothing is known of the documents but their bound
    have hlong : (fileBytes w.files s).length < (storedCursor w.store.sources s).offset := by
      rw [htracked.memory]
      exact hshort
    have hheld : Holds s w.store 0
        (max (textLines base).length (textLines (fileBytes w.files s)).length)
        (docsAt fmt none s []) := by
      refine ⟨?_, ?_, ?_⟩
      · exact below_eq_nil (fun d _ => Nat.zero_le _)
      · exact fun d hd => Nat.lt_of_lt_of_le (hsettled.bounded d hd) (Nat.le_max_left _ _)
      · exact fun op hop => (hsettled.queued op hop).mono (Nat.zero_le _) (Nat.le_max_left _ _)
    have hfound : Found fmt none s (fileBytes w.files s)
        (max (textLines base).length (textLines (fileBytes w.files s)).length) True []
        w.store :=
      ⟨hheld, Or.inr ⟨trivial, rfl⟩, List.nil_prefix, rfl, Or.inr ⟨hlong, rfl⟩⟩
    obtain ⟨-, hdone⟩ := Spec.completes
      (ingestSourcesAfter_spec (Nat.le_max_right _ _) hutf8 rfl (chosen_keys chosen) hs)
      (ingestSourcesAfter_total fmt none sizes w.files (cat.sources.filter chosen)) hfound
    have hne : completePart newline (fileBytes w.files s) ≠ [] :=
      fun hnil => (completePart_eq_nil newline).mp hnil (hline hlong)
    exact ⟨hdone.settled.resolve_left hne, hdone.tracked.resolve_right (fun hnil => hne hnil.2)⟩

theorem follows_step {w : World ix} {s : LogSource} (hs : s ∈ cat.sources)
    (h : Follows fmt s w) (a : Action) (hok : Observed s w a) (hline : LineAtReset s w a) :
    Follows fmt s (step fmt none cat w a) := by
  cases a with
  | append path bytes => exact follows_append h hok
  | truncate path len => exact follows_truncate h path len
  | ingest chosen sizes fault =>
      obtain ⟨rfl, hutf8⟩ := hok
      by_cases hchosen : chosen s = true
      · obtain ⟨hsettled, htracked⟩ := ingest_after_cut h sizes
          (List.mem_filter.mpr ⟨hs, hchosen⟩) (hutf8 hchosen) (hline hchosen)
        exact ⟨_, rest_completePart newline _, hsettled, htracked,
          Or.inl ⟨_, completePart_append_openPart newline _⟩⟩
      · obtain ⟨base, hfin, hsettled, htracked, hbase⟩ := h
        obtain ⟨done, hdone, hdoneFin, hsaved⟩ := htracked.saved
        have hkept := ingest_keeps fmt none hs (Bool.eq_false_iff.mpr hchosen) sizes none
          ⟨hsettled, htracked.memory, Or.inl hsaved⟩
        refine ⟨base, hfin, hkept.holds, ⟨hkept.memory, ?_⟩, hbase⟩
        rcases hkept.file with hfile | hfile
        · exact ⟨done, hdone, hdoneFin, hfile⟩
        · exact ⟨base, List.prefix_rfl, hfin, hfile⟩
  | lose lost => exact hok.elim
  | reopen opens => exact hok.elim

/-- **TRUNCATION IS HANDLED** along a run whose ingests, where they find the log
    shorter than its cursor, find a line break in it. -/
theorem truncation_handled_along (ix : SearchIndex) (fmt : LineFormat) (cat : Catalogue)
    {s : LogSource} (hs : s ∈ cat.sources) (files : BTreeMap (List UInt8))
    (actions : List Action)
    (hobserved : Along (step fmt none cat) (Observed s) (World.start ix files) actions)
    (hline : Along (step fmt none cat) (LineAtReset s) (World.start ix files) actions) :
    Along (step fmt none cat) (LinesOnce fmt cat s) (World.start ix files) actions := by
  have hstep : ∀ (w : World ix) (a : Action), Follows fmt s w →
      Observed s w a ∧ LineAtReset s w a → Follows fmt s (step fmt none cat w a) :=
    fun w a h hok => follows_step hs h a hok.1 hok.2
  have hgood : ∀ (w : World ix) (a : Action), Follows fmt s w →
      Observed s w a ∧ LineAtReset s w a → LinesOnce fmt cat s w a := by
    intro w a h hok hmem
    cases a with
    | ingest chosen sizes fault =>
        obtain ⟨⟨rfl, hutf8⟩, hline⟩ := hok
        have hchosen := (List.mem_filter.mp hmem).2
        obtain ⟨hsettled, -⟩ := ingest_after_cut h sizes hmem (hutf8 hchosen) (hline hchosen)
        have hdocs := Holds.docsOf hsettled
        rw [docsAt, kept_none, textLines_completePart] at hdocs
        exact hdocs
    | append path bytes => cases hmem
    | truncate path len => cases hmem
    | lose lost => cases hmem
    | reopen opens => cases hmem
  exact along_of_guarded (step fmt none cat) hstep hgood actions _ (follows_start files s)
    (along_and _ hobserved hline)

/-- A log is cut to nothing, grows a line and is ingested. -/
theorem truncation_handled_along_web :
    Along (step plainFormat none webCatalogue) (LinesOnce plainFormat webCatalogue webSource)
      (World.start listIndex ∅)
      [.append "/logs/web.log" [0x61, 0x0A, 0x62, 0x0A],
        .ingest (fun _ => true) (fun _ _ => 4) none, .truncate "/logs/web.log" 0,
        .append "/logs/web.log" [0x63, 0x0A], .ingest (fun _ => true) (fun _ _ => 4) none] :=
  truncation_handled_along listIndex plainFormat webCatalogue (by decide) ∅
    [.append "/logs/web.log" [0x61, 0x0A, 0x62, 0x0A],
      .ingest (fun _ => true) (fun _ _ => 4) none, .truncate "/logs/web.log" 0,
      .append "/logs/web.log" [0x63, 0x0A], .ingest (fun _ => true) (fun _ _ => 4) none]
    (by decide) (by decide)

/-- An ingest sees the log cut to nothing and changes nothing: the line that is gone
    stays in the index. -/
theorem truncated_to_nothing :
    let actions : List Action :=
      [.append "/logs/web.log" [0x61, 0x0A], .ingest (fun _ => true) (fun _ _ => 4) none,
        .truncate "/logs/web.log" 0, .ingest (fun _ => true) (fun _ _ => 4) none]
    Along (step plainFormat none webCatalogue) (Observed webSource) (World.start listIndex ∅) actions
      ∧ ¬ Along (step plainFormat none webCatalogue)
          (LinesOnce plainFormat webCatalogue webSource) (World.start listIndex ∅) actions := by
  intro actions
  refine ⟨by decide, ?_⟩
  rintro ⟨-, -, -, hlast, -⟩
  revert hlast
  rw [LinesOnce]
  decide

end Runs

end DevstackIngestRuns
