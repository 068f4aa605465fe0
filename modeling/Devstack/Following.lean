import Devstack.IngestExact
import Devstack.LogQuery
import Devstack.Lib.Cursor

/-! # Following — readers that go on behind the last line they were given

    `search_service` answers a query with `after` by the next matching lines, in the
    order of their sequence numbers, and gives the last of these numbers back as
    `next_after`.  A client that asks again with it reads the log page by page
    (`pagination_exact`).  `devstack logs --follow` (`stream_service_logs_api` of
    `src/cli/commands/logs.rs`) goes on in this way behind the last lines, which it is
    given in the order of their timestamps (`cli_follow_along`).

    A request ingests the log and searches.  Here these are two steps of a run, since
    others append and ingest in between.  How a line is printed is left out. -/

namespace DevstackFollowing

open DevstackModel DevstackMachine DevstackLines DevstackLossyUtf8 DevstackTopN DevstackCursor
open DevstackIngest DevstackIngestExact DevstackLogQuery

variable (tools : QueryTools) {ix : SearchIndex} (fmt : LineFormat) (cat : Catalogue)

/-- What `read_service_logs` answers, once its ingest is over. -/
def readServiceLogs (w : World ix) (s : LogSource) (query : LogsQuery) :
    Except String LogsResponse :=
  if w.files[s.path]?.isSome then searchService tools (ix.docs w.st.index) s.runId s.service query
  else .ok ⟨[], false, 0, 0, 0, none, 0⟩

/-- The world with what a reader of its logs keeps. -/
structure Reading (ix : SearchIndex) (σ : Type) where
  world : World ix
  reader : σ

inductive ReaderAction where
  /-- A writer appends to a log, or logs are ingested. -/
  | world (action : Action)
  /-- The reader's next request is answered. -/
  | request

def readerStep {σ : Type} (ask : World ix → σ → σ) (t : Reading ix σ) : ReaderAction → Reading ix σ
  | .world action => { t with world := step ix fmt cat t.world action }
  | .request => { t with reader := ask t.world t.reader }

/-- The finished lines of the log are text. -/
def TextLog (s : LogSource) (w : World ix) : Prop :=
  isUtf8 (completePart newline (fileBytes w.files s)) = true

instance (s : LogSource) (w : World ix) : Decidable (TextLog s w) :=
  inferInstanceAs (Decidable (_ = _))

/-- The documents of the log. -/
def logDocs (w : World ix) (s : LogSource) : List PendingDoc := docsOf (ix.docs w.st.index) s

/-- Those that a filter lets through; none if it is no query. -/
def matching (w : World ix) (s : LogSource) (filter : LogFilterQuery) : List PendingDoc :=
  match resultQuery tools s.runId (some s.service) filter none with
  | .ok result => (logDocs w s).filter result
  | .error _ => []

/-! ## The documents of a log -/

section Docs

variable {fmt cat} {s : LogSource} {w w' : World ix} {done done' : List UInt8}

theorem docsFrom_ascending (s : LogSource) (seq : Nat) (lines : List (List Char)) :
    Ascending PendingDoc.seq (docsFrom fmt s seq lines) := by
  induction lines generalizing seq with
  | nil => exact .nil
  | cons line lines ih =>
      refine .cons (fun d hd => ?_) (ih (seq + 1))
      exact Nat.lt_of_succ_le (docsFrom_ge hd)

theorem logDocs_ascending (h : SyncedTo fmt w s done) : Ascending PendingDoc.seq (logDocs w s) := by
  rw [logDocs, h.docs]
  exact docsFrom_ascending s 0 _

theorem matching_sublist (w : World ix) (s : LogSource) (filter : LogFilterQuery) :
    (matching tools w s filter).Sublist (logDocs w s) := by
  rw [matching]
  split
  · exact List.filter_sublist
  · exact List.nil_sublist _

/-- How many lines are asked for does not matter. -/
theorem matching_last (w : World ix) (s : LogSource) (filter : LogFilterQuery) (last : Option Nat) :
    matching tools w s { filter with last := last } = matching tools w s filter := rfl

theorem matching_ascending (h : SyncedTo fmt w s done) (filter : LogFilterQuery) :
    Ascending PendingDoc.seq (matching tools w s filter) :=
  (logDocs_ascending h).sublist (matching_sublist tools w s filter)

/-- More documents are behind the others. -/
theorem logDocs_grow (h : SyncedTo fmt w s done) (h' : SyncedTo fmt w' s done')
    (hgrow : done <+: done') :
    ∃ more, logDocs w' s = logDocs w s ++ more ∧ ∀ d ∈ more, (logDocs w s).length ≤ d.seq := by
  obtain ⟨new, rfl⟩ := hgrow
  refine ⟨docsFrom fmt s (textLines done).length (textLines new), ?_, fun d hd => ?_⟩
  · rw [logDocs, logDocs, h.docs, h'.docs, textLines_append h.finished, docsFrom_append, Nat.zero_add]
  · rw [logDocs, h.docs, docsFrom_length]
    exact docsFrom_ge hd

theorem matching_grow (h : SyncedTo fmt w s done) (h' : SyncedTo fmt w' s done')
    (hgrow : done <+: done') (filter : LogFilterQuery) :
    ∃ more, matching tools w' s filter = matching tools w s filter ++ more
      ∧ ∀ d ∈ more, (logDocs w s).length ≤ d.seq := by
  obtain ⟨more, hmore, hseq⟩ := logDocs_grow h h' hgrow
  rw [matching, matching, hmore]
  cases resultQuery tools s.runId (some s.service) filter none with
  | error err => exact ⟨[], rfl, fun d hd => (nomatch hd)⟩
  | ok result =>
      exact ⟨more.filter result, List.filter_append .., fun d hd => hseq d (List.mem_of_mem_filter hd)⟩

/-- A log that does not exist has no documents. -/
theorem logDocs_of_missing (h : SyncedTo fmt w s done) (hmissing : w.files[s.path]? = none) :
    logDocs w s = [] := by
  have hnil : fileBytes w.files s = [] := by rw [fileBytes, hmissing]; rfl
  obtain rfl : done = [] := List.prefix_nil.mp (hnil ▸ h.before)
  rw [logDocs, h.docs]
  rfl

end Docs

/-! ## What a query answers -/

section Answers

/-- A text query is one more condition, which commutes with others. -/
theorem addTextQuery_and (base more : PendingDoc → Bool) (query : Option String) :
    addTextQuery tools (fun doc => base doc && more doc) query
      = (addTextQuery tools base query).map (fun result doc => result doc && more doc) := by
  cases query with
  | none => rfl
  | some query =>
      simp only [addTextQuery]
      split
      · rfl
      · cases tools.parseQuery (trim query) with
        | error err => rfl
        | ok parsed => exact congrArg Except.ok (funext fun doc => Bool.and_right_comm _ _ _)

theorem addTextQuery_base {base result : PendingDoc → Bool} {query : Option String}
    (h : addTextQuery tools base query = .ok result) {doc : PendingDoc} (hdoc : result doc = true) :
    base doc = true := by
  cases query with
  | none => exact Except.ok.inj h ▸ hdoc
  | some query =>
      simp only [addTextQuery] at h
      split at h
      · exact Except.ok.inj h ▸ hdoc
      · cases hparse : tools.parseQuery (trim query) with
        | error err => rw [hparse] at h; exact nomatch h
        | ok parsed =>
            rw [hparse] at h
            obtain rfl := Except.ok.inj h
            exact (Bool.and_eq_true_iff.mp hdoc).1

/-- So is a bound on the sequence numbers. -/
theorem resultQuery_after (runId : String) (service : Option String) (filter : LogFilterQuery)
    (after : Nat) :
    resultQuery tools runId service filter (some after)
      = (resultQuery tools runId service filter none).map
          (fun result doc => result doc && decide (after < doc.seq)) := by
  rw [resultQuery, resultQuery, ← addTextQuery_and]
  refine congrArg (addTextQuery tools · filter.search) (funext fun doc => ?_)
  simp only [addLevelFilter, buildScopeQuery, Option.all_some, Option.all_none, Bool.and_true]
  rw [Bool.and_right_comm]

/-- What matches is of the service. -/
theorem resultQuery_scope {runId service : String} {filter : LogFilterQuery} {after : Option Nat}
    {result : PendingDoc → Bool}
    (h : resultQuery tools runId (some service) filter after = .ok result) {doc : PendingDoc}
    (hdoc : result doc = true) : doc.runId = runId ∧ doc.service = service := by
  have hbase := addTextQuery_base tools h hdoc
  simp only [addLevelFilter, buildScopeQuery, Option.all_some, Bool.and_eq_true, beq_iff_eq] at hbase
  exact ⟨hbase.1.1.1.1.1, hbase.1.1.1.1.2⟩

theorem filter_docsOf {s : LogSource} {result : PendingDoc → Bool}
    (h : ∀ doc, result doc = true → doc.runId = s.runId ∧ doc.service = s.service)
    (docs : List PendingDoc) : docs.filter result = (docsOf docs s).filter result := by
  rw [docsOf, List.filter_filter]
  refine List.filter_congr fun doc _ => ?_
  cases hdoc : result doc with
  | false => rfl
  | true =>
      obtain ⟨hrun, hservice⟩ := h doc hdoc
      simp [hrun, hservice]

variable {fmt} {w : World ix} {s : LogSource} {done : List UInt8} {response : LogsResponse}

theorem matching_of_missing (h : SyncedTo fmt w s done) (hmissing : w.files[s.path]? = none)
    (filter : LogFilterQuery) : matching tools w s filter = [] :=
  List.sublist_nil.mp (logDocs_of_missing h hmissing ▸ matching_sublist tools w s filter)

/-- A request that fails is no query, and nothing matches it. -/
theorem readServiceLogs_error {filter : LogFilterQuery} {after : Option Nat} {err : String}
    (h : readServiceLogs tools w s ⟨filter, after⟩ = .error err) :
    matching tools w s filter = [] := by
  rw [readServiceLogs] at h
  split at h
  · rw [matching]
    cases hresult : resultQuery tools s.runId (some s.service) filter none with
    | error err => rfl
    | ok result =>
        have hafter : ∃ result, resultQuery tools s.runId (some s.service) filter after
            = .ok result := by
          cases after with
          | none => exact ⟨result, hresult⟩
          | some cursor => exact ⟨_, by rw [resultQuery_after, hresult]; rfl⟩
        obtain ⟨result', hresult'⟩ := hafter
        simp only [searchService, hresult'] at h
        cases h
  · cases h

/-- A request with `after` is answered by the next lines. -/
theorem readServiceLogs_after (h : SyncedTo fmt w s done) {filter : LogFilterQuery}
    (htail : 0 < filter.tail) {cursor : Nat}
    (hok : readServiceLogs tools w s ⟨filter, some cursor⟩ = .ok response) :
    let page := (later PendingDoc.seq cursor (matching tools w s filter)).take filter.tail
    response.lines = page.map (·.raw) ∧ response.nextAfter = lastKey PendingDoc.seq page := by
  have hasc := matching_ascending tools h filter
  rw [readServiceLogs] at hok
  split at hok
  · cases hresult : resultQuery tools s.runId (some s.service) filter none with
    | error err =>
        simp only [searchService, resultQuery_after, hresult] at hok
        cases hok
    | ok result =>
        have hmatching : matching tools w s filter = (logDocs w s).filter result := by
          rw [matching, hresult]
        have hfound : (ix.docs w.st.index).filter (fun doc => result doc && decide (cursor < doc.seq))
            = later PendingDoc.seq cursor (matching tools w s filter) := by
          rw [filter_docsOf fun doc hdoc => resultQuery_scope tools hresult
            (Bool.and_eq_true_iff.mp hdoc).1, hmatching, later, List.filter_filter]
          exact List.filter_congr fun doc _ => Bool.and_comm _ _
        simp only [searchService, resultQuery_after, hresult, Except.map, hfound,
          Option.isSome_some, if_true, if_neg (Nat.ne_of_gt htail)] at hok
        obtain rfl := Except.ok.inj hok
        have hsorted : oldestBySeq filter.tail (later PendingDoc.seq cursor (matching tools w s filter))
            = (later PendingDoc.seq cursor (matching tools w s filter)).take filter.tail := by
          rw [oldestBySeq, List.mergeSort_of_pairwise]
          exact (hasc.sublist (later_sublist _ _)).imp fun hlt => decide_eq_true (Nat.le_of_lt hlt)
        dsimp only
        rw [hsorted, nextAfterOf_eq, largestSeq]
        exact ⟨rfl, ((hasc.sublist (later_sublist _ _)).sublist (List.take_sublist _ _)).max?_eq⟩
  · next hmissing =>
      obtain rfl := Except.ok.inj hok
      rw [matching_of_missing tools h (by simpa using hmissing)]
      simp [later]

/-- A request for the last lines. -/
theorem readServiceLogs_latest (h : SyncedTo fmt w s done) {filter : LogFilterQuery} {n : Nat}
    (hok : readServiceLogs tools w s ⟨{ filter with last := some n }, none⟩ = .ok response) :
    response.lines = (shownLines n (matching tools w s filter)).map (·.raw)
      ∧ response.nextAfter = nextAfterOf (newestByTime n (matching tools w s filter)) := by
  rw [readServiceLogs] at hok
  split at hok
  · cases hresult : resultQuery tools s.runId (some s.service) { filter with last := some n } none with
    | error err =>
        simp only [searchService, hresult] at hok
        cases hok
    | ok result =>
        have hfound : (ix.docs w.st.index).filter result = matching tools w s filter := by
          rw [filter_docsOf fun doc hdoc => resultQuery_scope tools hresult hdoc, ← matching_last,
            matching, hresult]
          rfl
        have hchosen : (if n = 0 then [] else newestByTime n (matching tools w s filter))
            = newestByTime n (matching tools w s filter) := by
          split
          · next hzero => rw [hzero, newestByTime, top, List.take_zero]
          · rfl
        simp only [searchService, hresult, hfound, Option.isSome_none, Bool.false_eq_true, if_false,
          show LogFilterQuery.tail { filter with last := some n } = n from rfl, hchosen] at hok
        obtain rfl := Except.ok.inj hok
        exact ⟨rfl, rfl⟩
  · next hmissing =>
      obtain rfl := Except.ok.inj hok
      rw [matching_of_missing tools h (by simpa using hmissing)]
      simp [shownLines, newestByTime, top, descending, sortByTimeAndSeq, ascending, nextAfterOf]

end Answers

/-! ## Page by page -/

structure Pages where
  after : Nat
  lines : List String

/-- The next request of a client that pages through the log of `s`. -/
def nextPage (s : LogSource) (filter : LogFilterQuery) (w : World ix) (pages : Pages) : Pages :=
  match readServiceLogs tools w s ⟨filter, some pages.after⟩ with
  | .error _ => pages
  | .ok response => ⟨response.nextAfter.getD pages.after, pages.lines ++ response.lines⟩

/-- A client that begins at `start`, and logs of which nothing is indexed. -/
def Pages.begin (ix : SearchIndex) (files : BTreeMap (List UInt8)) (start : Nat) :
    Reading ix Pages :=
  ⟨World.start ix files, start, []⟩

/-- The matching documents behind `start`. -/
def wanted (s : LogSource) (filter : LogFilterQuery) (start : Nat) (w : World ix) :
    List PendingDoc :=
  later PendingDoc.seq start (matching tools w s filter)

/-- What the client has been given are the next lines, and one page more after a request. -/
def PageExact (s : LogSource) (filter : LogFilterQuery) (start : Nat) (t : Reading ix Pages) :
    ReaderAction → Prop
  | .world _ => True
  | .request =>
      Ascending PendingDoc.seq (wanted tools s filter start t.world)
        ∧ t.reader.lines <+: (wanted tools s filter start t.world).map (·.raw)
        ∧ (nextPage tools s filter t.world t.reader).lines
            = ((wanted tools s filter start t.world).take
                (t.reader.lines.length + filter.tail)).map (·.raw)

def ReaderAction.isRequest : ReaderAction → Bool
  | .world _ => false
  | .request => true

section Pages

variable {tools fmt cat} {s : LogSource} {filter : LogFilterQuery} {start : Nat}

variable (tools fmt) in
/-- The client has seen the first of the documents it wants. -/
structure PagesAt (s : LogSource) (filter : LogFilterQuery) (start : Nat) (t : Reading ix Pages) :
    Prop where
  synced : ∃ done, SyncedTo fmt t.world s done
  read : ∃ seen, At PendingDoc.seq start (wanted tools s filter start t.world) seen t.reader.after
    ∧ t.reader.lines = seen.map (·.raw)

theorem lt_of_mem_wanted {w : World ix} {d : PendingDoc} (h : d ∈ wanted tools s filter start w) :
    start < d.seq := lt_of_mem_later h

/-- A step of the world leaves the client behind what it has seen. -/
theorem PagesAt.world (hs : s ∈ cat.sources) {t : Reading ix Pages}
    (h : PagesAt tools fmt s filter start t) (htext : TextLog s t.world) (a : Action) :
    PagesAt tools fmt s filter start (readerStep fmt cat (nextPage tools s filter) t (.world a))
      ∧ wanted tools s filter start t.world
          <+: wanted tools s filter start (step ix fmt cat t.world a) := by
  obtain ⟨done, hdone⟩ := h.synced
  obtain ⟨done', hgrow, hdone'⟩ := hdone.step hs a htext
  obtain ⟨more, hmore, -⟩ := matching_grow tools hdone hdone' hgrow filter
  have hwanted : wanted tools s filter start t.world
      <+: wanted tools s filter start (step ix fmt cat t.world a) := by
    rw [wanted, wanted, hmore]
    exact (List.prefix_append _ _).filter _
  obtain ⟨seen, hat, hlines⟩ := h.read
  exact ⟨⟨⟨done', hdone'⟩, seen, hat.grow hwanted, hlines⟩, hwanted⟩

/-- A request gives the client the next page. -/
theorem PagesAt.request (htail : 0 < filter.tail) {t : Reading ix Pages}
    (h : PagesAt tools fmt s filter start t) :
    PagesAt tools fmt s filter start (readerStep fmt cat (nextPage tools s filter) t .request)
      ∧ PageExact tools s filter start t .request := by
  obtain ⟨done, hdone⟩ := h.synced
  obtain ⟨seen, hat, hlines⟩ := h.read
  have hasc : Ascending PendingDoc.seq (wanted tools s filter start t.world) :=
    (matching_ascending tools hdone filter).sublist (later_sublist _ _)
  have hprefix : t.reader.lines <+: (wanted tools s filter start t.world).map (·.raw) :=
    hlines ▸ hat.before.map _
  have hlength : t.reader.lines.length = seen.length := by rw [hlines, List.length_map]
  rw [PageExact, hlength, readerStep, nextPage]
  cases hanswer : readServiceLogs tools t.world s ⟨filter, some t.reader.after⟩ with
  | error err =>
      have hnone : wanted tools s filter start t.world = [] := by
        rw [wanted, readServiceLogs_error tools hanswer]
        rfl
      refine ⟨⟨h.synced, seen, hat, hlines⟩, hasc, hprefix, ?_⟩
      rw [hnone] at hat ⊢
      rw [hlines, List.prefix_nil.mp hat.before, List.take_nil]
  | ok response =>
      obtain ⟨hpage, hnext⟩ := readServiceLogs_after tools hdone htail hanswer
      rw [← later_later (hat.start_le fun d hd => lt_of_mem_wanted hd)] at hpage hnext
      obtain ⟨htake, hat'⟩ := hat.page hasc (fun _ d hd => lt_of_mem_wanted hd) filter.tail
      dsimp only
      rw [hpage, hnext, hlines, ← List.map_append]
      exact ⟨⟨h.synced, _, hat', rfl⟩, hasc, hat.before.map _, congrArg _ htake⟩

theorem pagesAt_begin (hs : s ∈ cat.sources) (files : BTreeMap (List UInt8)) :
    PagesAt tools fmt s filter start (Pages.begin ix files start) :=
  ⟨synced_start fmt cat files s hs, [], ⟨List.nil_prefix, rfl⟩, rfl⟩

theorem PagesAt.step (hs : s ∈ cat.sources) (htail : 0 < filter.tail) {t : Reading ix Pages}
    (h : PagesAt tools fmt s filter start t) (htext : TextLog s t.world) (a : ReaderAction) :
    PagesAt tools fmt s filter start (readerStep fmt cat (nextPage tools s filter) t a) := by
  cases a with
  | world a => exact (h.world hs htext a).1
  | request => exact (h.request htail).1

/-- As many requests as it takes give the client what it wants. -/
theorem pages_reach (hs : s ∈ cat.sources) (htail : 0 < filter.tail) (docs : List PendingDoc)
    (actions : List ReaderAction) :
    ∀ (t : Reading ix Pages), PagesAt tools fmt s filter start t →
      Along (readerStep fmt cat (nextPage tools s filter)) (fun t _ => TextLog s t.world) t actions →
      docs <+: wanted tools s filter start t.world →
      docs.length ≤ t.reader.lines.length
        + actions.countP ReaderAction.isRequest * filter.tail →
      docs.map (·.raw)
        <+: (run (readerStep fmt cat (nextPage tools s filter)) t actions).reader.lines := by
  induction actions with
  | nil =>
      intro t h _ hdocs hlen
      obtain ⟨seen, hat, hlines⟩ := h.read
      rw [run_nil, hlines]
      rw [hlines, List.length_map, List.countP_nil, Nat.zero_mul, Nat.add_zero] at hlen
      exact (List.prefix_of_prefix_length_le hdocs hat.before hlen).map _
  | cons a actions ih =>
      rintro t h ⟨htext, hrest⟩ hdocs hlen
      cases a with
      | world a =>
          obtain ⟨hnext, hgrow⟩ := h.world hs htext a
          exact ih _ hnext hrest (hdocs.trans hgrow) hlen
      | request =>
          obtain ⟨hnext, -, -, hpage⟩ := @PagesAt.request tools ix fmt cat s filter start htail t h
          refine ih _ hnext hrest hdocs ?_
          have hlines := congrArg List.length hpage
          have hbound := hdocs.length_le
          rw [List.length_map, List.length_take] at hlines
          rw [List.countP_cons_of_pos rfl, Nat.succ_mul] at hlen
          show docs.length ≤ (nextPage tools s filter t.world t.reader).lines.length + _
          omega

end Pages

/-- **PAGINATION IS EXACT**: whatever is appended and ingested between the requests, each
    page goes on where the last one ended, in the order of sequence numbers, and every
    matching line behind `start` is among the pages once there are enough of them. -/
theorem pagination_exact (ix : SearchIndex) (files : BTreeMap (List UInt8)) {s : LogSource}
    (hs : s ∈ cat.sources) {filter : LogFilterQuery} (htail : 0 < filter.tail) (start : Nat)
    (actions more : List ReaderAction)
    (htext : Along (readerStep fmt cat (nextPage tools s filter)) (fun t _ => TextLog s t.world)
      (Pages.begin ix files start) (actions ++ more)) :
    let step := readerStep fmt cat (nextPage tools s filter)
    let docs := wanted tools s filter start (run step (Pages.begin ix files start) actions).world
    Along step (PageExact tools s filter start) (Pages.begin ix files start) (actions ++ more)
      ∧ (docs.length ≤ more.countP ReaderAction.isRequest * filter.tail →
        docs.map (·.raw)
          <+: (run step (Pages.begin ix files start) (actions ++ more)).reader.lines) := by
  intro step docs
  have hbegin : PagesAt tools fmt s filter start (Pages.begin ix files start) :=
    pagesAt_begin hs files
  have hstep : ∀ (t : Reading ix Pages) (a : ReaderAction), PagesAt tools fmt s filter start t →
      TextLog s t.world → PagesAt tools fmt s filter start (step t a) :=
    fun t a h htext => h.step hs htail htext a
  refine ⟨along_of_guarded step hstep ?_ _ _ hbegin htext, fun hlen => ?_⟩
  · intro t a h _
    cases a with
    | world a => trivial
    | request => exact (@PagesAt.request tools ix fmt cat s filter start htail t h).2
  · obtain ⟨hfirst, hmore⟩ := (along_append step _ _ actions more).mp htext
    rw [run_append]
    exact pages_reach hs htail docs more _ (guarded_invariant step hstep _ _ hbegin hfirst) hmore
      List.prefix_rfl (Nat.le_trans hlen (Nat.le_add_left _ _))

/-- Pages of one line. -/
def onePage : LogFilterQuery := { LogFilterQuery.default with last := some 1 }

def webIngest : Action := .ingest (fun _ => true) (fun _ _ => 3)

/-- The lines `a` and `b`; after a page, the line `c`. -/
def webFirst : List ReaderAction :=
  [.world (.append "/logs/web.log" [0x61, 0x0A, 0x62, 0x0A]), .world webIngest, .request]

def webMore : List ReaderAction :=
  [.world (.append "/logs/web.log" [0x63, 0x0A]), .world webIngest, .request]

theorem pagination_exact_web :
    let step := readerStep plainFormat webCatalogue (nextPage plainTools webSource onePage)
    let docs := wanted plainTools webSource onePage 0
      (run step (Pages.begin listIndex ∅ 0) webFirst).world
    docs.map (·.raw) = ["b"]
      ∧ docs.map (·.raw)
          <+: (run step (Pages.begin listIndex ∅ 0) (webFirst ++ webMore)).reader.lines :=
  ⟨by decide +kernel,
    (pagination_exact plainTools plainFormat webCatalogue listIndex ∅
      (show webSource ∈ webCatalogue.sources by decide) (show 0 < onePage.tail by decide) 0
      webFirst webMore (by decide +kernel)).2 (by decide +kernel)⟩

/-! ## Follow -/

/-- What `stream_service_logs_api` keeps and prints; how many documents there were at its
    first response is kept beside it. -/
structure Follow where
  started : Bool
  after : Option Nat
  initial : List String
  followed : List String
  indexedBefore : Nat

def Follow.begin (ix : SearchIndex) (files : BTreeMap (List UInt8)) : Reading ix Follow :=
  ⟨World.start ix files, false, none, [], [], 0⟩

/-- The cursor of the next request, when a response gave `next`. -/
def advance (after next : Option Nat) : Option Nat :=
  match next with
  | none => after
  | some next => some ((after.map (max · next)).getD next)

/-- The next request of `stream_service_logs_api`; it returns with an error. -/
def follow (s : LogSource) (filter : LogFilterQuery) (initialTail : Nat) (w : World ix)
    (f : Follow) : Follow :=
  if f.started then
    match readServiceLogs tools w s ⟨{ filter with last := some 500 }, f.after⟩ with
    | .error _ => f
    | .ok response =>
        { f with
          after := advance f.after response.nextAfter
          followed := f.followed ++ response.lines }
  else
    match readServiceLogs tools w s ⟨{ filter with last := some initialTail }, none⟩ with
    | .error _ => f
    | .ok response => ⟨true, response.nextAfter, response.lines, [], (logDocs w s).length⟩

/-- The matching documents that were indexed after the first `n`. -/
def sinceThen (n : Nat) (docs : List PendingDoc) : List PendingDoc :=
  docs.filter (fun doc => decide (n ≤ doc.seq))

/-- The first response prints the last lines, every later one the next of the lines that
    were indexed since, and nothing else. -/
def FollowExact (s : LogSource) (filter : LogFilterQuery) (initialTail : Nat)
    (t : Reading ix Follow) : ReaderAction → Prop
  | .world _ => True
  | .request =>
      let docs := matching tools t.world s filter
      let next := follow tools s filter initialTail t.world t.reader
      let since := sinceThen t.reader.indexedBefore docs
      if t.reader.started then
        next.initial = t.reader.initial
          ∧ Ascending PendingDoc.seq since
          ∧ t.reader.followed <+: since.map (·.raw)
          ∧ next.followed = (since.take (t.reader.followed.length + 500)).map (·.raw)
      else
        next.started = true → next.followed = []
          ∧ ∃ shown, LastLines initialTail docs shown ∧ next.initial = shown.map (·.raw)

/-- The first response can be followed: the cut among lines of one timestamp falls by age,
    and a line of the largest sequence number fits, or nothing matches.  A response
    without a cursor holds all that matches, in the order of its timestamps. -/
def Followable (s : LogSource) (filter : LogFilterQuery) (initialTail : Nat)
    (t : Reading ix Follow) : ReaderAction → Prop
  | .world _ => True
  | .request =>
      let docs := matching tools t.world s filter
      if t.reader.started then
        t.reader.after = none →
          docs.length ≤ 500 ∧ docs.Pairwise (fun a b => a.tsNanos ≤ b.tsNanos)
      else CutByAge initialTail docs ∧ NewestFits initialTail docs

section Follow

variable {tools fmt cat} {s : LogSource} {filter : LogFilterQuery} {initialTail : Nat}

/-- New documents are all of those that were indexed since. -/
theorem sinceThen_grow {n m : Nat} {more : List PendingDoc} (hmore : ∀ d ∈ more, m ≤ d.seq)
    (hn : n ≤ m) (docs : List PendingDoc) :
    (docs ++ more).filter (fun doc => decide (doc.seq < n))
        = docs.filter (fun doc => decide (doc.seq < n))
      ∧ sinceThen n docs <+: sinceThen n (docs ++ more) := by
  have hold : more.filter (fun doc => decide (doc.seq < n)) = [] :=
    List.filter_eq_nil_iff.mpr fun d hd => by have := hmore d hd; simp; omega
  rw [sinceThen, sinceThen, List.filter_append, List.filter_append, hold, List.append_nil]
  exact ⟨rfl, List.prefix_append _ _⟩

theorem advance_none (next : Option Nat) : advance none next = next := by
  cases next <;> rfl

theorem advance_later {cursor : Nat} {next : Option Nat} (h : ∀ k, next = some k → cursor < k) :
    advance (some cursor) next = some (next.getD cursor) := by
  cases next with
  | none => rfl
  | some k => exact congrArg some (Nat.max_eq_right (Nat.le_of_lt (h k rfl)))

/-- All of the documents, in the order of their timestamps and numbers. -/
theorem shownLines_eq_self {docs : List PendingDoc} {n : Nat}
    (hasc : Ascending PendingDoc.seq docs) (hlen : docs.length ≤ n)
    (htime : docs.Pairwise (fun a b => a.tsNanos ≤ b.tsNanos)) :
    (newestByTime n docs).Perm docs ∧ shownLines n docs = docs := by
  have hperm : (newestByTime n docs).Perm docs := by
    have hdesc := descending_perm PendingDoc.tsNanos docs
    rw [newestByTime, top, List.take_of_length_le (hdesc.length_eq ▸ hlen)]
    exact hdesc
  refine ⟨hperm, ascending_of_perm PendingDoc.tsNanos PendingDoc.seq hperm ?_ hasc.inj⟩
  refine (htime.and hasc).imp fun h => ?_
  obtain ⟨htime, hseq⟩ := h
  rw [lexLe, decide_eq_true_eq]
  rcases Int.lt_or_eq_of_le htime with hlt | heq
  · exact .inl hlt
  · exact .inr ⟨heq, Nat.le_of_lt hseq⟩

variable (tools fmt) in
/-- It has printed the first of the lines that were indexed since, and its cursor is the
    number of the last matching line it has got or that was there before. -/
structure FollowAt (s : LogSource) (filter : LogFilterQuery) (t : Reading ix Follow) : Prop where
  synced : ∃ done, SyncedTo fmt t.world s done
  follows : t.reader.started = true → t.reader.indexedBefore ≤ (logDocs t.world s).length
    ∧ ∃ got, got <+: sinceThen t.reader.indexedBefore (matching tools t.world s filter)
      ∧ t.reader.followed = got.map (·.raw)
      ∧ t.reader.after = lastKey PendingDoc.seq
          ((matching tools t.world s filter).filter
            (fun doc => decide (doc.seq < t.reader.indexedBefore)) ++ got)

theorem lt_of_mem_logDocs {w : World ix} {done : List UInt8} (h : SyncedTo fmt w s done)
    {d : PendingDoc} (hd : d ∈ logDocs w s) : d.seq < (logDocs w s).length := by
  rw [logDocs, h.docs] at hd ⊢
  rw [docsFrom_length]
  have hlt := (docsFrom_mem fmt s hd).2.2
  omega

theorem FollowAt.world (hs : s ∈ cat.sources) {t : Reading ix Follow}
    (h : FollowAt tools fmt s filter t) (htext : TextLog s t.world) (a : Action) :
    FollowAt tools fmt s filter (readerStep fmt cat (follow tools s filter initialTail) t (.world a)) := by
  obtain ⟨done, hdone⟩ := h.synced
  obtain ⟨done', hgrow, hdone'⟩ := hdone.step hs a htext
  obtain ⟨new, hnew, -⟩ := logDocs_grow hdone hdone' hgrow
  obtain ⟨more, hmore, hseq⟩ := matching_grow tools hdone hdone' hgrow filter
  refine ⟨⟨done', hdone'⟩, fun hstarted => ?_⟩
  obtain ⟨hbefore, got, hgot, hfollowed, hafter⟩ := h.follows hstarted
  obtain ⟨hold, hsince⟩ := sinceThen_grow hseq hbefore (matching tools t.world s filter)
  refine ⟨?_, got, ?_, hfollowed, hafter.trans ?_⟩
  · show t.reader.indexedBefore ≤ (logDocs (step ix fmt cat t.world a) s).length
    rw [hnew, List.length_append]
    exact Nat.le_add_right_of_le hbefore
  · show got <+: sinceThen t.reader.indexedBefore (matching tools (step ix fmt cat t.world a) s filter)
    rw [hmore]
    exact hgot.trans hsince
  · show _ = lastKey PendingDoc.seq ((matching tools (step ix fmt cat t.world a) s filter).filter
      (fun doc => decide (doc.seq < t.reader.indexedBefore)) ++ got)
    rw [hmore, hold]

/-- Among the lines behind a cursor there are those that were indexed since. -/
theorem follow_page {docs got : List PendingDoc} (hasc : Ascending PendingDoc.seq docs) {n : Nat}
    (hgot : got <+: sinceThen n docs) {cursor : Nat}
    (hafter : some cursor = lastKey PendingDoc.seq
      (docs.filter (fun doc => decide (doc.seq < n)) ++ got)) (tail : Nat) :
    let page := (later PendingDoc.seq cursor docs).take tail
    got ++ page = (sinceThen n docs).take (got.length + tail)
      ∧ some ((lastKey PendingDoc.seq page).getD cursor) = lastKey PendingDoc.seq
          (docs.filter (fun doc => decide (doc.seq < n)) ++ (got ++ page)) := by
  intro page
  have hsplit : docs.filter (fun doc => decide (doc.seq < n)) ++ sinceThen n docs = docs :=
    hasc.split n
  generalize docs.filter (fun doc => decide (doc.seq < n)) = old at hafter hsplit ⊢
  have hne : old ++ got ≠ [] := fun hnil => by
    rw [hnil] at hafter
    exact nomatch hafter
  have hat : At PendingDoc.seq 0 docs (old ++ got) cursor := by
    refine ⟨?_, by rw [cursorAfter, ← hafter, Option.getD_some]⟩
    conv_rhs => rw [← hsplit]
    exact (List.prefix_append_right_inj old).mpr hgot
  obtain ⟨htake, hnext⟩ := hat.page hasc (fun hnil => absurd hnil hne) tail
  have hpage : old ++ (got ++ page) = old ++ (sinceThen n docs).take (got.length + tail) := by
    rw [← List.append_assoc, htake, List.length_append, Nat.add_assoc]
    conv_lhs => rw [← hsplit]
    exact List.take_length_add_append _
  refine ⟨List.append_cancel_left hpage, ?_⟩
  rw [← List.append_assoc, lastKey_append, ← hafter]
  cases lastKey PendingDoc.seq page <;> rfl

/-- The first response. -/
theorem FollowAt.first {t : Reading ix Follow} (h : FollowAt tools fmt s filter t)
    (hfirst : t.reader.started = false)
    (hok : Followable tools s filter initialTail t .request) :
    FollowAt tools fmt s filter (readerStep fmt cat (follow tools s filter initialTail) t .request)
      ∧ FollowExact tools s filter initialTail t .request := by
  obtain ⟨done, hdone⟩ := h.synced
  have hnot : ¬ t.reader.started = true := by rw [hfirst]; exact Bool.false_ne_true
  simp only [Followable, if_neg hnot] at hok
  obtain ⟨hcut, hfits⟩ := hok
  simp only [FollowExact, readerStep, follow, if_neg hnot]
  cases hanswer : readServiceLogs tools t.world s ⟨{ filter with last := some initialTail }, none⟩ with
  | error err => exact ⟨h, fun hstarted => absurd hstarted hnot⟩
  | ok response =>
      obtain ⟨hlines, hnext⟩ := readServiceLogs_latest tools hdone hanswer
      have hnext : response.nextAfter
          = lastKey PendingDoc.seq (matching tools t.world s filter) :=
        hnext.trans (((nextAfter_iff _ _).mpr hfits).trans
          (matching_ascending tools hdone filter).max?_eq)
      have hall : (matching tools t.world s filter).filter
          (fun doc => decide (doc.seq < (logDocs t.world s).length)) = matching tools t.world s filter :=
        List.filter_eq_self.mpr fun d hd => decide_eq_true
          (lt_of_mem_logDocs hdone ((matching_sublist tools _ s filter).subset hd))
      refine ⟨⟨h.synced, fun _ => ⟨Nat.le_refl _, [], List.nil_prefix, rfl, ?_⟩⟩, fun _ => ⟨rfl, _,
        (lastLines_iff _ _).mpr hcut, hlines⟩⟩
      show response.nextAfter = lastKey _ (_ ++ [])
      rw [hall, List.append_nil]
      exact hnext

/-- Every later response. -/
theorem FollowAt.next {t : Reading ix Follow} (h : FollowAt tools fmt s filter t)
    (hstarted : t.reader.started = true)
    (hok : Followable tools s filter initialTail t .request) :
    FollowAt tools fmt s filter (readerStep fmt cat (follow tools s filter initialTail) t .request)
      ∧ FollowExact tools s filter initialTail t .request := by
  obtain ⟨done, hdone⟩ := h.synced
  obtain ⟨hbefore, got, hgot, hfollowed, hafter⟩ := h.follows hstarted
  have hasc := matching_ascending tools hdone filter
  have hsince : Ascending PendingDoc.seq
      (sinceThen t.reader.indexedBefore (matching tools t.world s filter)) :=
    hasc.sublist List.filter_sublist
  have hprefix : t.reader.followed
      <+: (sinceThen t.reader.indexedBefore (matching tools t.world s filter)).map (·.raw) :=
    hfollowed ▸ hgot.map _
  have hlength : t.reader.followed.length = got.length := by rw [hfollowed, List.length_map]
  simp only [Followable, if_pos hstarted] at hok
  simp only [FollowExact, readerStep, follow, if_pos hstarted, hlength]
  cases hanswer : readServiceLogs tools t.world s
      ⟨{ filter with last := some 500 }, t.reader.after⟩ with
  | error err =>
      have hnone : matching tools t.world s { filter with last := some 500 } = [] :=
        readServiceLogs_error tools hanswer
      rw [matching_last] at hnone
      refine ⟨h, rfl, hsince, hprefix, ?_⟩
      rw [hnone] at hgot ⊢
      rw [hfollowed, List.prefix_nil.mp hgot]
      rfl
  | ok response =>
      cases hcursor : t.reader.after with
      | none =>
          -- nothing matched so far
          rw [hcursor] at hok hanswer hafter
          obtain ⟨hold, rfl⟩ := List.append_eq_nil_iff.mp ((lastKey_eq_none _).mp hafter.symm)
          have hall : sinceThen t.reader.indexedBefore (matching tools t.world s filter)
              = matching tools t.world s filter := by
            have hsplit := hasc.split t.reader.indexedBefore
            rw [hold, List.nil_append] at hsplit
            exact hsplit
          obtain ⟨hlines, hnext⟩ := readServiceLogs_latest tools hdone hanswer
          obtain ⟨hlen, htime⟩ := hok rfl
          obtain ⟨hperm, hself⟩ := shownLines_eq_self hasc hlen htime
          have hlines : response.lines = (matching tools t.world s filter).map (·.raw) :=
            hlines.trans (congrArg (List.map (·.raw)) hself)
          have hnext : response.nextAfter
              = lastKey PendingDoc.seq (matching tools t.world s filter) := by
            rw [hnext, nextAfterOf_eq, largestSeq_congr fun d => hperm.mem_iff, largestSeq]
            exact hasc.max?_eq
          have hfollowed' : t.reader.followed ++ response.lines
              = (matching tools t.world s filter).map (·.raw) := by rw [hfollowed, hlines]; rfl
          dsimp only
          rw [hnext, advance_none, hfollowed', hall, List.take_of_length_le (by rw [List.length_nil]; omega)]
          rw [hall] at hsince hprefix
          refine ⟨⟨h.synced, fun _ => ⟨hbefore, _, ?_, rfl, ?_⟩⟩, rfl, hsince, hprefix, rfl⟩
          · show _ <+: sinceThen t.reader.indexedBefore (matching tools t.world s filter)
            simp only [hall]
            exact List.prefix_rfl
          · show _ = lastKey _ (List.filter _ _ ++ _)
            rw [hold, List.nil_append]
      | some cursor =>
          rw [hcursor] at hanswer hafter
          obtain ⟨hpage, hnext⟩ := readServiceLogs_after tools hdone
            (show 0 < ({ filter with last := some 500 } : LogFilterQuery).tail from Nat.succ_pos 499)
            hanswer
          obtain ⟨htake, hlast⟩ := follow_page hasc hgot hafter 500
          rw [matching_last] at hpage hnext
          have hafter' : advance (some cursor) response.nextAfter
              = some ((lastKey PendingDoc.seq
                  ((later PendingDoc.seq cursor (matching tools t.world s filter)).take 500)).getD
                    cursor) := by
            rw [hnext]
            refine advance_later fun k hk => ?_
            obtain ⟨d, hd, rfl⟩ := Option.map_eq_some_iff.mp hk
            exact lt_of_mem_later (List.mem_of_mem_take (List.mem_of_getLast? hd))
          have hfollowed' : t.reader.followed ++ response.lines
              = (got ++ (later PendingDoc.seq cursor (matching tools t.world s filter)).take 500).map
                  (·.raw) := by
            rw [hfollowed, hpage, List.map_append]
            rfl
          dsimp only
          rw [hafter', hfollowed', hlast, htake]
          refine ⟨⟨h.synced, fun _ => ⟨hbefore, _, List.take_prefix _ _, rfl, rfl⟩⟩, rfl, hsince,
            hprefix, rfl⟩

end Follow

/-- **FOLLOW IS EXACT** along every run whose responses can be followed: the last lines
    first, then every matching line that was indexed since, once and in order. -/
theorem cli_follow_along (ix : SearchIndex) (files : BTreeMap (List UInt8)) {s : LogSource}
    (hs : s ∈ cat.sources) (filter : LogFilterQuery) (initialTail : Nat)
    (actions : List ReaderAction)
    (hok : Along (readerStep fmt cat (follow tools s filter initialTail))
      (fun t a => TextLog s t.world ∧ Followable tools s filter initialTail t a)
      (Follow.begin ix files) actions) :
    Along (readerStep fmt cat (follow tools s filter initialTail))
      (FollowExact tools s filter initialTail) (Follow.begin ix files) actions := by
  have hrequest : ∀ t : Reading ix Follow, FollowAt tools fmt s filter t →
      Followable tools s filter initialTail t .request →
        FollowAt tools fmt s filter
            (readerStep fmt cat (follow tools s filter initialTail) t .request)
          ∧ FollowExact tools s filter initialTail t .request := by
    intro t h hok
    cases hstarted : t.reader.started with
    | false => exact h.first hstarted hok
    | true => exact h.next hstarted hok
  have hbegin : FollowAt tools fmt s filter (Follow.begin ix files) :=
    ⟨synced_start fmt cat files s hs, fun h => (nomatch h)⟩
  refine along_of_guarded _ ?_ ?_ actions _ hbegin hok
  · rintro t a h ⟨htext, hok⟩
    cases a with
    | world a => exact h.world hs htext a
    | request => exact (hrequest t h hok).1
  · rintro t a h ⟨-, hok⟩
    cases a with
    | world a => trivial
    | request => exact (hrequest t h hok).2

/-- The line `a`, the first response, the line `b` and a poll. -/
theorem cli_follow_web :
    Along (readerStep plainFormat webCatalogue (follow plainTools webSource .default 200))
      (FollowExact plainTools webSource .default 200) (Follow.begin listIndex ∅)
      [.world (.append "/logs/web.log" [0x61, 0x0A]), .world webIngest, .request,
        .world (.append "/logs/web.log" [0x62, 0x0A]), .world webIngest, .request] := by
  have hfirst : matching plainTools
      (run (readerStep plainFormat webCatalogue (follow plainTools webSource .default 200))
        (Follow.begin listIndex ∅)
        [.world (.append "/logs/web.log" [0x61, 0x0A]), .world webIngest]).world
      webSource .default = [plainDoc 0 0 "a"] := by decide +kernel
  simp only [run_cons, run_nil] at hfirst
  refine cli_follow_along plainTools plainFormat webCatalogue listIndex ∅
    (show webSource ∈ webCatalogue.sources by decide) .default 200 _ ?_
  refine ⟨⟨by decide +kernel, trivial⟩, ⟨by decide +kernel, trivial⟩, ⟨by decide +kernel, ?_⟩,
    ⟨by decide +kernel, trivial⟩, ⟨by decide +kernel, trivial⟩, ⟨by decide +kernel, ?_⟩, trivial⟩
  · show CutByAge 200 _ ∧ NewestFits 200 _
    rw [hfirst]
    exact ⟨cutByAge_of_distinct (by decide) 200, .inr ⟨0, plainDoc 0 0 "a", by decide, by decide⟩⟩
  · intro h
    revert h
    decide +kernel

/-- With a tail of zero the first response has no cursor, and the next one has all that was
    there before. -/
theorem zero_tail_prints_old_lines :
    ¬ Along (readerStep plainFormat webCatalogue (follow plainTools webSource .default 0))
      (FollowExact plainTools webSource .default 0) (Follow.begin listIndex ∅)
      [.world (.append "/logs/web.log" [0x61, 0x0A]), .world webIngest, .request,
        .world webIngest, .request] := by
  rintro ⟨-, -, -, -, hlast, -⟩
  have hfollowed := hlast.2.2.2
  revert hfollowed
  decide +kernel

end DevstackFollowing
