import Devstack.IngestExact
import Devstack.LogQuery

/-! # The facet cache — counted answers between commits

    `query_view` and `clear_facet_cache` of `src/infra/logs/index/query.rs`,
    `facets.rs`, `commit_ingest_batch`, `delete_run` and the evictions.  A query for
    facets alone keeps its answer in a cache; whatever commits to the index reloads
    the reader and clears the cache, and after that makes the facet fields known or
    drops them.  A query reads the fields, reads the index and fills the cache in
    steps of its own, and holds nothing that would stop a commit in between.

    * `facetView_of_key`: the key of the cache decides the answer;
    * `cache_current_step`: a cache that is cleared once more before the changes in
      progress end is right when they do, up to the answers put into it since;
    * `facets_current_along`: so every answer is the one of the index and the fields
      of the moment, in every run in which no answer that outlives the last clear was
      counted before the change took effect. -/

namespace DevstackFacetCache

open DevstackModel DevstackIngest DevstackLogQuery DevstackMachine
open DevstackIngestExact (docKey)

-- ── facets.rs ─────────────────────────────────────────────────────────────────

structure FacetFieldSpec where
  field : String
  column : String
  deriving DecidableEq

/-- `FacetFieldSpec::base`. -/
def FacetFieldSpec.base (field : String) : FacetFieldSpec := ⟨field, field⟩

/-- `FacetFieldSpec::attr`. -/
def FacetFieldSpec.attr (field : String) : FacetFieldSpec := ⟨field, "attrs." ++ field⟩

structure FacetValueCount where
  value : String
  count : Nat
  deriving DecidableEq

structure FacetFilter where
  field : String
  kind : String
  values : List FacetValueCount
  deriving DecidableEq

/-- The strings of a column in a document. -/
def columnValues (column : String) (doc : PendingDoc) : List String :=
  if column = "service" then [doc.service]
  else if column = "level" then [doc.level]
  else if column = "stream" then [doc.stream]
  else (doc.dynamicFields.filter (fun field => "attrs." ++ field.1 == column)).map (·.2)

def facetTermsLimit : Nat := 50

/-- `FacetCountCollector` and `facet_values_from_counts`: the non-empty values of a
    column with their counts, the most frequent first. -/
def facetValues (spec : FacetFieldSpec) (docs : List PendingDoc) : List FacetValueCount :=
  let found := (docs.flatMap (columnValues spec.column)).filter (fun value => !value.isEmpty)
  let values := found.dedup.map (fun value => ⟨value, found.count value⟩)
  (values.mergeSort (fun left right : FacetValueCount =>
      decide (right.count < left.count)
        || (right.count == left.count && decide (left.value ≤ right.value)))).take facetTermsLimit

def facetKindFor (field : String) : String :=
  if field = "level" ∨ field = "stream" then "toggle" else "select"

def facetSortRank (field : String) : Nat :=
  if field = "service" then 0 else if field = "level" then 1 else if field = "stream" then 2 else 3

/-- The `filters` of a response. -/
def facetFilters (fields : List FacetFieldSpec) (docs : List PendingDoc) : List FacetFilter :=
  let filters := fields.filterMap (fun spec =>
    let values := facetValues spec docs
    if values = [] then none else some ⟨spec.field, facetKindFor spec.field, values⟩)
  filters.mergeSort (fun left right =>
    decide (facetSortRank left.field < facetSortRank right.field)
      || (facetSortRank left.field == facetSortRank right.field
        && decide (left.field ≤ right.field)))

/-- `IngestStateFile::facet_fields`; a `BTreeSet` has the names as keys. -/
abbrev FacetFields := BTreeMap (BTreeMap Unit)

/-- `facet_fields_for_scope`. -/
def facetFieldsForScope (known : FacetFields) (runId : String) (service : Option String) :
    List FacetFieldSpec :=
  let names : List (BTreeMap Unit) := match service with
    | some service => (known[runId ++ "/" ++ service]?).toList
    | none => (known.toList.filter (fun entry => entry.1.startsWith (runId ++ "/"))).map (·.2)
  let dynamicFields := names.foldl (fun fields names => names.keys.foldl
    (fun fields name => fields.insert name ()) fields) (∅ : BTreeMap Unit)
  [.base "service", .base "level", .base "stream"] ++ dynamicFields.keys.map .attr

-- ── query.rs ──────────────────────────────────────────────────────────────────

variable (tools : QueryTools)

/-- A `LogViewResponse` with its filters. -/
structure FacetResponse extends LogViewResponse tools where
  filters : List FacetFilter

structure FacetCacheKey where
  runId : String
  service : Option String
  since : Option String
  search : Option String
  level : Option String
  stream : Option String
  deriving DecidableEq

/-- `facet_cache_key`: only queries for facets without entries are cached. -/
def facetCacheKey (runId : String) (query : LogViewQuery) : Option FacetCacheKey :=
  if query.includeFacets && !query.includeEntries then
    some ⟨runId, query.service, query.filter.since, query.filter.search, query.filter.level,
      query.filter.stream⟩
  else none

/-- The documents a view shows or counts. -/
def matchingDocs (runId : String) (query : LogViewQuery) (docs : List PendingDoc) :
    List PendingDoc :=
  match resultQuery tools runId query.service query.filter none with
  | .error _ => []
  | .ok result => docs.filter result

/-- The response to a view, from the fields that were read and the documents that were
    searched. -/
def facetView (fields : List FacetFieldSpec) (docs : List PendingDoc) (runId : String)
    (query : LogViewQuery) : Except String (FacetResponse tools) :=
  match queryView tools docs (!fields.isEmpty) runId query with
  | .error err => .error err
  | .ok view =>
      .ok { view with
        filters := if query.includeFacets then facetFilters fields (matchingDocs tools runId query docs)
          else [] }

/-! ## The steps of queries and changes -/

/-- What holds the ingest gate: a batch of an ingest or the deletion of a run. -/
inductive Change where
  | ingest (updates : List PendingUpdate) (docs : List PendingDoc)
  | deleteRun (runId : String)

/-- What `writer.commit()` makes of the documents. -/
def Change.commit : Change → List PendingDoc → List PendingDoc
  | .ingest updates added, docs => docs.filter (fun d => !deleteQuery updates d) ++ added
  | .deleteRun runId, docs => docs.filter (fun d => !(d.runId == runId))

/-- `dynamic_field_names_by_source` of the batch is added; the keys of a deleted run
    are dropped by their prefix. -/
def Change.publish : Change → FacetFields → FacetFields
  | .ingest _ added, known =>
      added.foldl (fun known doc => doc.dynamicFields.foldl (fun known field =>
        known.insert (docKey doc) ((known[docKey doc]?.getD ∅).insert field.1 ())) known) known
  | .deleteRun runId, known => known.filter (fun key _ => !key.startsWith (runId ++ "/"))

/-- How far a change has come since its commit. -/
inductive Stage where
  | committed
  | reloaded
  | cleared
  deriving DecidableEq

inductive QueryStage where
  | missed
  | fieldsRead (fields : List FacetFieldSpec)
  | searched (fields : List FacetFieldSpec) (docs : List PendingDoc)

/-- A query that was not answered from the cache. -/
structure FacetQuery where
  runId : String
  query : LogViewQuery
  key : FacetCacheKey
  stage : QueryStage

structure State where
  /-- What was committed last. -/
  docs : List PendingDoc
  /-- What the reader shows. -/
  reader : List PendingDoc
  facetFields : FacetFields
  facetCache : List (FacetCacheKey × FacetResponse tools)
  /-- The change that has committed and holds the gate. -/
  gate : Option (Change × Stage)
  /-- Evictions after their commit; they have let the gate go. -/
  evictions : List Stage
  queries : List FacetQuery

def State.start : State tools := ⟨[], [], ∅, [], none, [], []⟩

inductive Action where
  /-- The commit of an ingest batch or of `delete_run`. -/
  | commit (change : Change)
  /-- The next step of the change that holds the gate. -/
  | proceed
  /-- The commit of an eviction: documents before the cutoff go. -/
  | evict (cutoff : Int)
  | proceedEviction (i : Nat)
  /-- The reader reloads by itself some time after a commit. -/
  | autoReload
  /-- A query arrives and looks into the cache. -/
  | ask (runId : String) (query : LogViewQuery)
  /-- The next step of a query. -/
  | advance (i : Nat)

variable {tools}

/-- `reload` and `clear_facet_cache`, which every change does after its commit. -/
def settle (st : State tools) : Stage → State tools
  | .committed => { st with reader := st.docs }
  | .reloaded => { st with facetCache := [] }
  | .cleared => st

def Stage.next : Stage → Stage
  | .committed => .reloaded
  | _ => .cleared

def step (st : State tools) : Action → State tools
  | .commit change =>
      match st.gate with
      | some _ => st
      | none => { st with docs := change.commit st.docs, gate := some (change, .committed) }
  | .proceed =>
      match st.gate with
      | none => st
      | some (change, .cleared) =>
          { st with facetFields := change.publish st.facetFields, gate := none }
      | some (change, stage) => { settle st stage with gate := some (change, stage.next) }
  | .evict cutoff =>
      match st.gate with
      | some _ => st
      | none =>
          { st with
            docs := st.docs.filter (fun d => !decide (d.tsNanos < cutoff))
            evictions := st.evictions ++ [.committed] }
  | .proceedEviction i =>
      match st.evictions[i]? with
      | none => st
      | some .committed => { settle st .committed with evictions := st.evictions.set i .reloaded }
      | some _ => { settle st .reloaded with evictions := st.evictions.eraseIdx i }
  | .autoReload => { st with reader := st.docs }
  | .ask runId query =>
      match facetCacheKey runId query with
      | none => st
      | some key =>
          match st.facetCache.lookup key with
          | some _ => st
          | none =>
              match resultQuery tools runId query.service query.filter none with
              | .error _ => st
              | .ok _ => { st with queries := st.queries ++ [⟨runId, query, key, .missed⟩] }
  | .advance i =>
      match st.queries[i]? with
      | none => st
      | some q =>
          match q.stage with
          | .missed =>
              let fields := facetFieldsForScope st.facetFields q.runId q.query.service
              { st with queries := st.queries.set i { q with stage := .fieldsRead fields } }
          | .fieldsRead fields =>
              { st with queries := st.queries.set i { q with stage := .searched fields st.reader } }
          | .searched fields docs =>
              let queries := st.queries.eraseIdx i
              match facetView tools fields docs q.runId q.query with
              | .error _ => { st with queries := queries }
              | .ok response =>
                  { st with facetCache := (q.key, response) :: st.facetCache, queries := queries }

/-- What a step returns to its client: a hit, an error of the query string, or an
    answer that was counted. -/
def returned (st : State tools) :
    Action → Option (String × LogViewQuery × Except String (FacetResponse tools))
  | .ask runId query =>
      match facetCacheKey runId query with
      | none => none
      | some key =>
          match st.facetCache.lookup key with
          | some response => some (runId, query, .ok response)
          | none =>
              match resultQuery tools runId query.service query.filter none with
              | .error err => some (runId, query, .error err)
              | .ok _ => none
  | .advance i =>
      match st.queries[i]? with
      | some ⟨runId, query, _, .searched fields docs⟩ =>
          some (runId, query, facetView tools fields docs runId query)
      | _ => none
  | _ => none

/-- The response that the committed index and the known fields give. -/
def currentView (st : State tools) (known : FacetFields) (runId : String) (query : LogViewQuery) :
    Except String (FacetResponse tools) :=
  facetView tools (facetFieldsForScope known runId query.service) st.docs runId query

/-- No change is in progress. -/
def Idle (st : State tools) : Prop := st.gate = none ∧ st.evictions = []

instance (st : State tools) : Decidable (Idle st) := inferInstanceAs (Decidable (_ ∧ _))

/-- What is returned when nothing is in progress is counted from the index and the
    fields of the moment. -/
def Current (st : State tools) (a : Action) : Prop :=
  Idle st → ∀ x ∈ returned st a, x.2.2 = currentView st st.facetFields x.1 x.2.1

/-- The fields that are known once the change in progress has ended. -/
def fieldsAtEnd (st : State tools) : FacetFields :=
  match st.gate with
  | some (change, _) => change.publish st.facetFields
  | none => st.facetFields

/-- A change in progress has still to clear the cache. -/
def clearToCome (st : State tools) : Bool :=
  st.gate.any (fun gate => gate.2 != .cleared) || !st.evictions.isEmpty

/-- The fields of which the documents have a value. -/
def valued (fields : List FacetFieldSpec) (docs : List PendingDoc) : List FacetFieldSpec :=
  fields.filter (fun spec => facetValues spec docs != [])

/-- The cache is still to be cleared, or the documents the query searched match as those
    of the index do, and the fields it read are, as far as these documents have values
    for them, those that are known when the change in progress has ended. -/
def UpToDate (st : State tools) (q : FacetQuery) : QueryStage → Prop
  | .searched fields docs =>
      clearToCome st = true
        ∨ (matchingDocs tools q.runId q.query docs = matchingDocs tools q.runId q.query st.docs
          ∧ valued fields (matchingDocs tools q.runId q.query st.docs)
            = valued (facetFieldsForScope (fieldsAtEnd st) q.runId q.query.service)
                (matchingDocs tools q.runId q.query st.docs))
  | _ => True

instance (st : State tools) (q : FacetQuery) : ∀ stage, Decidable (UpToDate st q stage)
  | .searched _ _ => inferInstanceAs (Decidable (_ ∨ _))
  | .missed => inferInstanceAs (Decidable True)
  | .fieldsRead _ => inferInstanceAs (Decidable True)

/-- A query that puts its answer into the cache was not overtaken by a change. -/
def NotOvertaken (st : State tools) : Action → Prop
  | .advance i => ∀ q ∈ st.queries[i]?, UpToDate st q q.stage
  | _ => True

instance (st : State tools) : ∀ a, Decidable (NotOvertaken st a)
  | .advance _ => inferInstanceAs (Decidable (∀ q ∈ _, _))
  | .commit _ => inferInstanceAs (Decidable True)
  | .proceed => inferInstanceAs (Decidable True)
  | .evict _ => inferInstanceAs (Decidable True)
  | .proceedEviction _ => inferInstanceAs (Decidable True)
  | .autoReload => inferInstanceAs (Decidable True)
  | .ask _ _ => inferInstanceAs (Decidable True)

/-! ## What an answer depends on -/

/-- A query with the parts that the key keeps. -/
def FacetCacheKey.query (key : FacetCacheKey) : LogViewQuery :=
  ⟨⟨none, key.since, key.search, key.level, key.stream⟩, key.service, false, true, true⟩

theorem facetCacheKey_eq_some {runId : String} {query : LogViewQuery} {key : FacetCacheKey}
    (h : facetCacheKey runId query = some key) :
    (query.includeFacets = true ∧ query.includeEntries = false)
      ∧ key = ⟨runId, query.service, query.filter.since, query.filter.search, query.filter.level,
          query.filter.stream⟩ := by
  rw [facetCacheKey] at h
  split at h
  · next honly =>
      rw [Bool.and_eq_true, Bool.not_eq_true'] at honly
      exact ⟨honly, (Option.some.inj h).symm⟩
  · exact nomatch h

/-- The response to a query for facets alone: a total and the filters. -/
theorem facetView_only {fields : List FacetFieldSpec} (hne : fields ≠ []) (docs : List PendingDoc)
    (runId : String) {query : LogViewQuery} (hfacets : query.includeFacets = true)
    (hentries : query.includeEntries = false) :
    facetView tools fields docs runId query
      = match resultQuery tools runId query.service query.filter none with
        | .error err => .error err
        | .ok _ => .ok ⟨⟨[], false, (matchingDocs tools runId query docs).length, true⟩,
            facetFilters fields (matchingDocs tools runId query docs)⟩ := by
  have hnonempty : (!fields.isEmpty) = true := by
    rw [Bool.not_eq_true', List.isEmpty_eq_false_iff]
    exact hne
  rw [facetView, queryView, matchingDocs, hnonempty]
  cases hresult : resultQuery tools runId query.service query.filter none with
  | error err => rfl
  | ok result =>
      have hsearch : ∀ total : Bool, viewSearch false true total query.filter.tail (docs.filter result)
          = ⟨[], (docs.filter result).length, true, false⟩ := by
        intro total
        cases total <;> rfl
      simp only [hfacets, hentries, Bool.false_and, Bool.and_self, if_true, hsearch]
      simp [sortByTimeAndSeq, DevstackTopN.ascending]

/-- **THE KEY DECIDES THE ANSWER**: what it leaves out does not matter. -/
theorem facetView_of_key {fields : List FacetFieldSpec} (hne : fields ≠ []) (docs : List PendingDoc)
    {runId : String} {query : LogViewQuery} {key : FacetCacheKey}
    (h : facetCacheKey runId query = some key) :
    facetView tools fields docs runId query = facetView tools fields docs key.runId key.query := by
  obtain ⟨⟨hfacets, hentries⟩, rfl⟩ := facetCacheKey_eq_some h
  rw [facetView_only hne docs runId hfacets hentries, facetView_only hne docs _ rfl rfl]
  rfl

/-- A field without a value has no filter. -/
theorem facetFilters_valued (fields : List FacetFieldSpec) (docs : List PendingDoc) :
    facetFilters (valued fields docs) docs = facetFilters fields docs := by
  rw [facetFilters, facetFilters, valued, List.filterMap_filter]
  refine congrArg (fun filters => List.mergeSort filters _) (List.filterMap_congr fun spec _ => ?_)
  by_cases hnone : facetValues spec docs = []
  · simp [hnone]
  · simp [hnone]

/-- The filters are those of the fields with a value. -/
theorem mem_facetFilters {fields : List FacetFieldSpec} {docs : List PendingDoc} {field : String} :
    field ∈ (facetFilters fields docs).map (·.field)
      ↔ ∃ spec ∈ valued fields docs, spec.field = field := by
  rw [facetFilters, (List.mergeSort_perm _ _).map _ |>.mem_iff]
  simp only [List.mem_map, List.mem_filterMap, valued, List.mem_filter]
  constructor
  · rintro ⟨filter, ⟨spec, hspec, hvalues⟩, rfl⟩
    split at hvalues
    · exact nomatch hvalues
    · next hne =>
        refine ⟨spec, ⟨hspec, by simpa using hne⟩, ?_⟩
        rw [← Option.some.inj hvalues]
  · rintro ⟨spec, ⟨hspec, hne⟩, rfl⟩
    have hvalues : facetValues spec docs ≠ [] := by simpa using hne
    exact ⟨_, ⟨spec, hspec, if_neg hvalues⟩, rfl⟩

theorem facetView_congr {fields fields' : List FacetFieldSpec} (hne : fields ≠ [])
    (hne' : fields' ≠ []) {docs docs' : List PendingDoc} {runId : String} {query : LogViewQuery}
    (hfacets : query.includeFacets = true) (hentries : query.includeEntries = false)
    (hdocs : matchingDocs tools runId query docs = matchingDocs tools runId query docs')
    (hfields : valued fields (matchingDocs tools runId query docs')
      = valued fields' (matchingDocs tools runId query docs')) :
    facetView tools fields docs runId query = facetView tools fields' docs' runId query := by
  rw [facetView_only hne docs runId hfacets hentries,
    facetView_only hne' docs' runId hfacets hentries, hdocs,
    ← facetFilters_valued fields, hfields, facetFilters_valued]

theorem facetFieldsForScope_ne_nil (known : FacetFields) (runId : String)
    (service : Option String) : facetFieldsForScope known runId service ≠ [] :=
  List.append_ne_nil_of_left_ne_nil (List.cons_ne_nil _ _) _

/-! ## The cache -/

/-- A query in progress is one that is cached, and has read some fields. -/
structure QueryOk (q : FacetQuery) : Prop where
  key : facetCacheKey q.runId q.query = some q.key
  fields : match q.stage with
    | .missed => True
    | .fieldsRead fields => fields ≠ []
    | .searched fields _ => fields ≠ []

/-- If the changes in progress will not clear the cache any more, what it has is what
    will be right when they have ended. -/
structure CacheCurrent (st : State tools) : Prop where
  cached : clearToCome st = false → ∀ (key : FacetCacheKey) (response : FacetResponse tools),
    st.facetCache.lookup key = some response →
      .ok response = currentView st (fieldsAtEnd st) key.runId key.query
  queries : ∀ q ∈ st.queries, QueryOk q

theorem cacheCurrent_start : CacheCurrent (State.start tools) :=
  ⟨fun _ _ _ h => (nomatch h), fun _ h => (nomatch h)⟩

/-- An answer that was not overtaken is the one of the index and of the fields to be
    known. -/
theorem answer_current {st : State tools} {q : FacetQuery} (hq : QueryOk q)
    {fields : List FacetFieldSpec} {docs : List PendingDoc} (hstage : q.stage = .searched fields docs)
    (hdocs : matchingDocs tools q.runId q.query docs = matchingDocs tools q.runId q.query st.docs)
    (hfields : valued fields (matchingDocs tools q.runId q.query st.docs)
      = valued (facetFieldsForScope (fieldsAtEnd st) q.runId q.query.service)
          (matchingDocs tools q.runId q.query st.docs)) :
    facetView tools fields docs q.runId q.query
      = currentView st (fieldsAtEnd st) q.runId q.query := by
  obtain ⟨⟨hfacets, hentries⟩, -⟩ := facetCacheKey_eq_some hq.key
  have hne := hq.fields
  rw [hstage] at hne
  exact facetView_congr hne (facetFieldsForScope_ne_nil _ _ _) hfacets hentries hdocs hfields

/-- What the state may change without a word about the cache. -/
theorem CacheCurrent.congr {st st' : State tools} (h : CacheCurrent st)
    (hclear : clearToCome st' = clearToCome st) (hfields : fieldsAtEnd st' = fieldsAtEnd st)
    (hdocs : st'.docs = st.docs) (hcache : st'.facetCache = st.facetCache)
    (hqueries : ∀ q ∈ st'.queries, QueryOk q) : CacheCurrent st' := by
  refine ⟨fun hno key response hlookup => ?_, hqueries⟩
  rw [hcache] at hlookup
  have hcached := h.cached (hclear ▸ hno) key response hlookup
  rw [currentView] at hcached ⊢
  rw [hfields, hdocs]
  exact hcached

/-- While a clear is to come, the cache may hold anything. -/
theorem CacheCurrent.of_clearToCome {st : State tools} (h : clearToCome st = true)
    (hqueries : ∀ q ∈ st.queries, QueryOk q) : CacheCurrent st :=
  ⟨fun hno => absurd (hno.symm.trans h) Bool.false_ne_true, hqueries⟩

theorem CacheCurrent.of_cleared {st : State tools} (h : st.facetCache = [])
    (hqueries : ∀ q ∈ st.queries, QueryOk q) : CacheCurrent st := by
  refine ⟨fun _ key response hlookup => ?_, hqueries⟩
  rw [h] at hlookup
  exact nomatch hlookup

theorem cacheCurrent_proceed {st : State tools} (h : CacheCurrent st) :
    CacheCurrent (step st .proceed) := by
  rw [step]
  split
  · exact h
  · next change hgate =>
      -- the fields are published
      refine h.congr ?_ ?_ rfl rfl h.queries
      · simp [clearToCome, hgate]
      · simp [fieldsAtEnd, hgate]
  · next change stage hne hgate =>
      cases stage with
      | committed => exact .of_clearToCome (by simp [clearToCome, Stage.next]) h.queries
      | reloaded => exact .of_cleared rfl h.queries
      | cleared => exact absurd rfl hne

theorem cacheCurrent_proceedEviction {st : State tools} (h : CacheCurrent st) (i : Nat) :
    CacheCurrent (step st (.proceedEviction i)) := by
  rw [step]
  split
  · exact h
  · next hstage =>
      refine .of_clearToCome ?_ h.queries
      have hlt := (List.getElem?_eq_some_iff.mp hstage).1
      cases hevictions : st.evictions with
      | nil => rw [hevictions] at hlt; exact nomatch hlt
      | cons stage rest => cases i <;> simp [clearToCome]
  · exact .of_cleared rfl h.queries

theorem mem_set_query {queries : List FacetQuery} {i : Nat} {q' : FacetQuery}
    (h : ∀ q ∈ queries, QueryOk q) (h' : QueryOk q') : ∀ q ∈ queries.set i q', QueryOk q :=
  fun q hq => (List.mem_or_eq_of_mem_set hq).elim (h q) (fun heq => heq ▸ h')

theorem cacheCurrent_advance {st : State tools} (h : CacheCurrent st) (i : Nat)
    (hok : NotOvertaken st (.advance i)) : CacheCurrent (step st (.advance i)) := by
  rw [step]
  cases hi : st.queries[i]? with
  | none => exact h
  | some q =>
      have hq := h.queries q (List.mem_of_getElem? hi)
      dsimp only
      cases hstage : q.stage with
      | missed =>
          exact h.congr rfl rfl rfl rfl
            (mem_set_query h.queries ⟨hq.key, facetFieldsForScope_ne_nil _ _ _⟩)
      | fieldsRead fields =>
          have hne := hq.fields
          rw [hstage] at hne
          exact h.congr rfl rfl rfl rfl (mem_set_query h.queries ⟨hq.key, hne⟩)
      | searched fields docs =>
          have hrest : ∀ q' ∈ st.queries.eraseIdx i, QueryOk q' :=
            fun q' hq' => h.queries q' (List.mem_of_mem_eraseIdx hq')
          dsimp only
          cases hview : facetView tools fields docs q.runId q.query with
          | error err => exact h.congr rfl rfl rfl rfl hrest
          | ok response =>
              refine ⟨fun hno key response' hlookup => ?_, hrest⟩
              have hguard := hok q hi
              rw [hstage] at hguard
              obtain ⟨hdocs, hfields⟩ := hguard.resolve_left (fun hyes =>
                Bool.false_ne_true (hno.symm.trans hyes))
              have hcurrent : .ok response
                  = currentView st (fieldsAtEnd st) q.key.runId q.key.query := by
                rw [← hview, answer_current hq hstage hdocs hfields]
                obtain ⟨-, hkeyEq⟩ := facetCacheKey_eq_some hq.key
                rw [currentView, facetView_of_key (facetFieldsForScope_ne_nil _ _ _) st.docs hq.key]
                rw [hkeyEq]
                rfl
              by_cases hkey : key = q.key
              · subst hkey
                rw [List.lookup_cons_self] at hlookup
                obtain rfl := Option.some.inj hlookup
                exact hcurrent
              · rw [List.lookup_cons, beq_eq_false_iff_ne.mpr hkey] at hlookup
                exact h.cached hno key response' hlookup

/-- **EVERY STEP** keeps the cache. -/
theorem cache_current_step {st : State tools} (h : CacheCurrent st) (a : Action)
    (hok : NotOvertaken st a) : CacheCurrent (step st a) := by
  cases a with
  | commit change =>
      rw [step]
      split
      · exact h
      · exact .of_clearToCome (by simp [clearToCome]) h.queries
  | proceed => exact cacheCurrent_proceed h
  | evict cutoff =>
      rw [step]
      split
      · exact h
      · exact .of_clearToCome (by simp [clearToCome]) h.queries
  | proceedEviction i => exact cacheCurrent_proceedEviction h i
  | autoReload => exact h.congr rfl rfl rfl rfl h.queries
  | ask runId query =>
      rw [step]
      split
      · exact h
      · next key hkey =>
          split
          · exact h
          · split
            · exact h
            · refine h.congr rfl rfl rfl rfl (fun q hq => ?_)
              rcases List.mem_append.mp hq with hq | hq
              · exact h.queries q hq
              · rw [List.mem_singleton.mp hq]
                exact ⟨hkey, trivial⟩
  | advance i => exact cacheCurrent_advance h i hok

/-- What is returned when nothing is in progress. -/
theorem current_of_cacheCurrent {st : State tools} (h : CacheCurrent st) (a : Action)
    (hok : NotOvertaken st a) : Current st a := by
  rintro ⟨hgate, hevictions⟩ x hx
  have hno : clearToCome st = false := by simp [clearToCome, hgate, hevictions]
  have hend : fieldsAtEnd st = st.facetFields := by simp [fieldsAtEnd, hgate]
  cases a with
  | ask runId query =>
      rw [returned] at hx
      cases hkey : facetCacheKey runId query with
      | none => rw [hkey] at hx; cases hx
      | some key =>
          rw [hkey] at hx
          dsimp only at hx
          have hview := @facetView_of_key tools _
            (facetFieldsForScope_ne_nil st.facetFields runId query.service) st.docs _ _ _ hkey
          obtain ⟨-, hkeyEq⟩ := facetCacheKey_eq_some hkey
          cases hlookup : st.facetCache.lookup key with
          | some response =>
              rw [hlookup] at hx
              obtain rfl := Option.some.inj hx
              have hcached := h.cached hno key response hlookup
              rw [hend, currentView] at hcached
              rw [currentView, hview]
              rw [hkeyEq] at hcached ⊢
              exact hcached
          | none =>
              rw [hlookup] at hx
              dsimp only at hx
              cases hresult : resultQuery tools runId query.service query.filter none with
              | ok result => rw [hresult] at hx; cases hx
              | error err =>
                  rw [hresult] at hx
                  obtain rfl := Option.some.inj hx
                  rw [currentView, facetView, queryView, hresult]
  | advance i =>
      rw [returned] at hx
      split at hx
      · next runId query key fields docs hi =>
          obtain rfl := Option.some.inj hx
          have hguard := hok _ hi
          obtain ⟨hdocs, hfields⟩ := hguard.resolve_left (fun hyes =>
            Bool.false_ne_true (hno.symm.trans hyes))
          have hanswer := answer_current (h.queries _ (List.mem_of_getElem? hi)) rfl hdocs hfields
          rw [hend] at hanswer
          exact hanswer
      · cases hx
  | commit change => cases hx
  | proceed => cases hx
  | evict cutoff => cases hx
  | proceedEviction i => cases hx
  | autoReload => cases hx

/-- **FACETS ARE CURRENT** along every run in which no query that puts its answer into
    the cache for good was overtaken by a change. -/
theorem facets_current_along (tools : QueryTools) (actions : List Action)
    (h : Along (@step tools) NotOvertaken (State.start tools) actions) :
    Along (@step tools) Current (State.start tools) actions :=
  along_of_guarded step (fun _ a h hok => cache_current_step h a hok)
    (fun _ a h hok => current_of_cacheCurrent h a hok) actions _ cacheCurrent_start h

/-! ## A field that is published after the cache was cleared -/

/-- A line with the attribute `user`. -/
def userDoc : PendingDoc := { plainDoc 1 0 "a" with dynamicFields := [("user", "u1")] }

def userBatch : Change := .ingest [⟨"r1/web", ⟨2, 1⟩, "r1", "web", some 0⟩] [userDoc]

/-- The facets of a run. -/
def facetsOnly : LogViewQuery := ⟨.default, none, false, true, true⟩

/-- A query after an ingest, and the same again. -/
theorem facets_current_user :
    Along (@step plainTools) Current (State.start plainTools)
      [.commit userBatch, .proceed, .proceed, .proceed, .ask "r1" facetsOnly, .advance 0, .advance 0,
        .advance 0, .ask "r1" facetsOnly] :=
  facets_current_along plainTools
    [.commit userBatch, .proceed, .proceed, .proceed, .ask "r1" facetsOnly, .advance 0, .advance 0,
      .advance 0, .ask "r1" facetsOnly]
    (by decide +kernel)

/-- A query between the clear and the new field. -/
def overtakenSteps : List Action :=
  [.commit userBatch, .proceed, .proceed, .ask "r1" facetsOnly, .advance 0, .advance 0,
    .advance 0, .proceed]

/-- A query that runs between the clear and the new field: its answer has no filter for
    `user`, and is what every later query gets. -/
theorem facets_without_new_field :
    ¬ Along (@step plainTools) Current (State.start plainTools)
      [.commit userBatch, .proceed, .proceed, .ask "r1" facetsOnly, .advance 0, .advance 0,
        .advance 0, .proceed, .ask "r1" facetsOnly] := by
  rintro ⟨-, -, -, -, -, -, -, -, hlast, -⟩
  have hidle : Idle (run step (State.start plainTools) overtakenSteps) := by decide +kernel
  have hreturned : returned (run step (State.start plainTools) overtakenSteps)
      (.ask "r1" facetsOnly)
        = some ("r1", facetsOnly, facetView plainTools (facetFieldsForScope ∅ "r1" none)
            [userDoc] "r1" facetsOnly) := by rfl
  have hcurrent : currentView (run step (State.start plainTools) overtakenSteps)
      (run step (State.start plainTools) overtakenSteps).facetFields "r1" facetsOnly
        = facetView plainTools (facetFieldsForScope (userBatch.publish ∅) "r1" none)
            [userDoc] "r1" facetsOnly := by rfl
  have heq := (hlast hidle _ hreturned).trans hcurrent
  rw [facetView_only (facetFieldsForScope_ne_nil _ _ _) _ _ rfl rfl,
    facetView_only (facetFieldsForScope_ne_nil _ _ _) _ _ rfl rfl] at heq
  have hfilters := congrArg FacetResponse.filters (Except.ok.inj heq)
  have huser : "user" ∈ (facetFilters (facetFieldsForScope (userBatch.publish ∅) "r1" none)
      (matchingDocs plainTools "r1" facetsOnly [userDoc])).map (·.field) :=
    mem_facetFilters.mpr ⟨.attr "user", by decide +kernel, rfl⟩
  dsimp only at hfilters
  rw [← hfilters, mem_facetFilters] at huser
  revert huser
  decide +kernel

end DevstackFacetCache
