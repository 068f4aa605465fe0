import Devstack.FacetCache

/-! # Log views — one answer in six collector sets

    `query_view` of `src/infra/logs/index/query.rs` has a collector set for each
    combination of entries, facets and total, each with its limit, truncation and total.
    Here it is put together with its cache, over one index content and the facet fields
    known for it.

    * `facetView_shown`: whatever is counted besides, the entries are the documents that
      `search_service` shows;
    * `modes_agree`: with a cache that was counted from this content the modes agree, and
      the total is the exact one or one more than the tail, wherever anything is asked for;
    * `nothing_asked_no_total`: a view that asks for nothing has the total 0. -/

namespace DevstackLogViews

open DevstackModel DevstackIngest DevstackLogQuery DevstackFacetCache

variable {tools : QueryTools}

-- ── query.rs ──────────────────────────────────────────────────────────────────

/-- What `query_view` reads: the index, the facet fields and the cache. -/
structure Index (tools : QueryTools) where
  docs : List PendingDoc
  facetFields : FacetFields
  facetCache : List (FacetCacheKey × FacetResponse tools)

/-- What is counted for a view. -/
def Index.count (index : Index tools) (runId : String) (query : LogViewQuery) :
    Except String (FacetResponse tools) :=
  facetView tools (facetFieldsForScope index.facetFields runId query.service) index.docs runId query

/-- `query_view`. -/
def Index.queryView (index : Index tools) (runId : String) (query : LogViewQuery) :
    Except String (FacetResponse tools) :=
  match (facetCacheKey runId query).bind (index.facetCache.lookup ·) with
  | some response => .ok response
  | none => index.count runId query

/-- What `query_view` leaves: an answer with facets alone goes into the cache. -/
def Index.cached (index : Index tools) (runId : String) (query : LogViewQuery) : Index tools :=
  match facetCacheKey runId query, index.count runId query with
  | some key, .ok response =>
      if (index.facetCache.lookup key).isSome then index
      else { index with facetCache := (key, response) :: index.facetCache }
  | _, _ => index

/-- The documents that match a view, all of them. -/
def Index.exactTotal (index : Index tools) (runId : String) (query : LogViewQuery) : Nat :=
  (matchingDocs tools runId query index.docs).length

/-- What the cache has was counted from this content. -/
def Counted (index : Index tools) : Prop :=
  ∀ (key : FacetCacheKey) (response : FacetResponse tools),
    index.facetCache.lookup key = some response → index.count key.runId key.query = .ok response

-- ── what is asked of it ───────────────────────────────────────────────────────

/-- The combinations of `include_entries`, `include_facets` and `include_total`. -/
structure Mode where
  entries : Bool
  facets : Bool
  total : Bool

/-- Something is asked for. -/
def Mode.asks (mode : Mode) : Prop := mode.entries ∨ mode.facets ∨ mode.total

def Mode.query (mode : Mode) (filter : LogFilterQuery) (service : Option String) : LogViewQuery :=
  ⟨filter, service, mode.entries, mode.facets, mode.total⟩

section Modes

variable (index : Index tools) (runId : String) (service : Option String) (filter : LogFilterQuery)

def view (mode : Mode) : Except String (FacetResponse tools) :=
  index.queryView runId (mode.query filter service)

/-- The total is the exact one if it says so, else it counts up to one more than the tail. -/
def TotalRight (mode : Mode) : Prop :=
  ∀ response, view index runId service filter mode = .ok response →
    response.total = if response.totalExact then index.exactTotal runId (mode.query filter service)
      else min (index.exactTotal runId (mode.query filter service)) (filter.tail + 1)

/-- A view has no total: it is 0, and does not say that it is exact. -/
def NoTotal (mode : Mode) : Prop :=
  ∀ response, view index runId service filter mode = .ok response →
    response.total = 0 ∧ response.totalExact = false

/-- The modes agree, with a total where `Asked` holds and with none elsewhere. -/
structure ModesAgree (Asked : Mode → Prop) : Prop where
  entries : ∀ mode mode' : Mode, mode.entries → mode'.entries →
    (view index runId service filter mode).map (fun response => (response.entries, response.truncated))
      = (view index runId service filter mode').map
        (fun response => (response.entries, response.truncated))
  filters : ∀ mode mode' : Mode, mode.facets = mode'.facets →
    (view index runId service filter mode).map (·.filters)
      = (view index runId service filter mode').map (·.filters)
  total : ∀ mode, Asked mode → TotalRight index runId service filter mode
  noTotal : ∀ mode, ¬ Asked mode → NoTotal index runId service filter mode
  lines : ∀ (mode : Mode) (name : String), mode.entries → service = some name →
    (view index runId service filter mode).map (fun response => response.entries.map (·.raw))
      = (searchService tools index.docs runId name ⟨filter, none⟩).map (·.lines)

end Modes

-- ── one answer ────────────────────────────────────────────────────────────────

/-- The key of a view decides what is counted for it. -/
theorem count_of_key (index : Index tools) {runId : String} {query : LogViewQuery}
    {key : FacetCacheKey} (hkey : facetCacheKey runId query = some key) :
    index.count runId query = index.count key.runId key.query := by
  have hscope : key.query.service = query.service := by
    rw [(facetCacheKey_eq_some hkey).2]
    rfl
  have hrun : key.runId = runId := by rw [(facetCacheKey_eq_some hkey).2]
  rw [Index.count, Index.count, hscope, hrun,
    facetView_of_key (facetFieldsForScope_ne_nil _ _ _) _ hkey, hrun]

/-- A cache that was counted from this content changes nothing. -/
theorem queryView_counted {index : Index tools} (h : Counted index) (runId : String)
    (query : LogViewQuery) : index.queryView runId query = index.count runId query := by
  rw [Index.queryView]
  cases hkey : facetCacheKey runId query with
  | none => rfl
  | some key =>
      rw [Option.bind_some]
      cases hcached : index.facetCache.lookup key with
      | none => rfl
      | some response =>
          rw [count_of_key index hkey]
          exact (h key response hcached).symm

/-- What a view puts into the cache was counted from this content too. -/
theorem Counted.cached {index : Index tools} (h : Counted index) (runId : String)
    (query : LogViewQuery) : Counted (index.cached runId query) := by
  rw [Index.cached]
  split
  · next key response hkey hresponse =>
      split
      · exact h
      · intro key' response' hlookup
        show index.count key'.runId key'.query = .ok response'
        rw [List.lookup_cons] at hlookup
        split at hlookup
        · next heq =>
            obtain rfl : key' = key := beq_iff_eq.mp heq
            obtain rfl := Option.some.inj hlookup
            rw [← count_of_key index hkey, hresponse]
        · exact h key' response' hlookup
  · exact h

theorem fields_known (index : Index tools) (runId : String) (query : LogViewQuery) :
    (!(facetFieldsForScope index.facetFields runId query.service).isEmpty) = true := by
  rw [Bool.not_eq_true', List.isEmpty_eq_false_iff]
  exact facetFieldsForScope_ne_nil _ _ _

theorem matchingDocs_ok {runId : String} {query : LogViewQuery} {result : PendingDoc → Bool}
    (h : resultQuery tools runId query.service query.filter none = .ok result)
    (docs : List PendingDoc) : matchingDocs tools runId query docs = docs.filter result := by
  rw [matchingDocs, h]

/-- What `viewSearch` gives is what is answered. -/
theorem count_ok {index : Index tools} {runId : String} {query : LogViewQuery}
    {result : PendingDoc → Bool}
    (h : resultQuery tools runId query.service query.filter none = .ok result) :
    index.count runId query
      = .ok
        (let matching := index.docs.filter result
         let search := viewSearch (query.includeEntries && decide (0 < query.filter.tail))
           query.includeFacets query.includeTotal query.filter.tail matching
         ⟨⟨(sortByTimeAndSeq search.chosen).map (logEntry tools),
            query.includeEntries && search.truncated, search.total, search.totalExact⟩,
          if query.includeFacets then
            facetFilters (facetFieldsForScope index.facetFields runId query.service) matching
          else []⟩) := by
  rw [Index.count, facetView, DevstackLogQuery.queryView, h, fields_known, Bool.and_true,
    matchingDocs_ok h]

theorem count_error {index : Index tools} {runId : String} {query : LogViewQuery} {err : String}
    (h : resultQuery tools runId query.service query.filter none = .error err) :
    index.count runId query = .error err := by
  rw [Index.count, facetView, DevstackLogQuery.queryView, h]

theorem length_newestByTime (n : Nat) (docs : List PendingDoc) :
    (newestByTime n docs).length = min n docs.length := by
  rw [newestByTime, DevstackTopN.top, List.length_take,
    (DevstackTopN.descending_perm _ docs).length_eq]

/-- With entries, whether one more document is asked for or all are counted, as many are
    shown, and there are more of them than are shown or not. -/
theorem viewSearch_truncated {facets total : Bool} {n : Nat} {docs : List PendingDoc}
    (hn : n ≤ usizeMax) (hdocs : docs.length ≤ usizeMax) :
    (viewSearch true facets total n docs).truncated = decide (n < docs.length) := by
  have hcounted : (viewSearch true false false n docs).truncated = decide (n < docs.length) := by
    have hlength := length_newestByTime (min (n + 1) usizeMax) docs
    have hiff : n < (newestByTime (min (n + 1) usizeMax) docs).length ↔ n < docs.length := by
      rw [hlength]
      omega
    rw [viewSearch]
    by_cases hmore : n < docs.length
    · rw [if_pos (hiff.mpr hmore), decide_eq_true hmore]
    · rw [if_neg (fun h => hmore (hiff.mp h)), decide_eq_false hmore]
  cases facets with
  | true => rfl
  | false =>
      cases total with
      | true => rfl
      | false => exact hcounted

/-- The total of a search that asks for something. -/
theorem viewSearch_total {entries facets total : Bool} {n : Nat} {docs : List PendingDoc}
    (hn : n ≤ usizeMax) (hdocs : docs.length ≤ usizeMax) (hasks : entries ∨ facets ∨ total) :
    (viewSearch entries facets total n docs).total
      = if (viewSearch entries facets total n docs).totalExact then docs.length
        else min docs.length (n + 1) := by
  have hcounted : (viewSearch true false false n docs).totalExact = false
      ∧ (viewSearch true false false n docs).total = min docs.length (n + 1) := by
    have hlength := length_newestByTime (min (n + 1) usizeMax) docs
    rw [viewSearch]
    by_cases hmore : n < (newestByTime (min (n + 1) usizeMax) docs).length
    · rw [if_pos hmore]
      rw [hlength] at hmore
      exact ⟨rfl, show min (n + 1) usizeMax = _ by omega⟩
    · rw [if_neg hmore]
      rw [hlength] at hmore
      exact ⟨rfl, show (newestByTime (min (n + 1) usizeMax) docs).length = _ by omega⟩
  cases entries with
  | true =>
      cases facets with
      | true => rfl
      | false =>
          cases total with
          | true => rfl
          | false =>
              rw [hcounted.1, hcounted.2]
              rfl
  | false =>
      cases facets with
      | true => cases total <;> rfl
      | false =>
          cases total with
          | true => rfl
          | false => simp at hasks

section Modes

variable {index : Index tools} {runId : String} {service : Option String} {filter : LogFilterQuery}

/-- **WHATEVER IS COUNTED BESIDES**: with entries, the documents shown are those of
    `search_service`, and `truncated` says whether there are more. -/
theorem facetView_shown {result : PendingDoc → Bool} {mode : Mode} (hentries : mode.entries)
    (h : resultQuery tools runId service filter none = .ok result)
    (hdocs : index.docs.length ≤ usizeMax) (htail : 0 < filter.tail) (hmax : filter.tail ≤ usizeMax) :
    (index.count runId (mode.query filter service)).map
        (fun response => (response.entries, response.truncated))
      = .ok ((shownLines filter.tail (index.docs.filter result)).map (logEntry tools),
          decide (filter.tail < (index.docs.filter result).length)) := by
  have hmatching : (index.docs.filter result).length ≤ usizeMax :=
    (List.length_filter_le ..).trans hdocs
  obtain ⟨entries, facets, total⟩ := mode
  obtain rfl : entries = true := hentries
  rw [count_ok (by exact h)]
  show Except.ok _ = _
  have hshows : (true && decide (0 < filter.tail)) = true := by rw [decide_eq_true htail]; rfl
  refine congrArg Except.ok (Prod.ext ?_ ?_)
  · show ((sortByTimeAndSeq (viewSearch (true && decide (0 < filter.tail)) facets total filter.tail
      (index.docs.filter result)).chosen).map _) = _
    rw [hshows, viewSearch_chosen hmax, shownLines]
  · show (true && (viewSearch (true && decide (0 < filter.tail)) facets total filter.tail
      (index.docs.filter result)).truncated) = _
    rw [hshows, viewSearch_truncated hmax hmatching, Bool.true_and]

/-- The lines of `search_service` without `after`. -/
theorem searchService_lines {name : String} {result : PendingDoc → Bool} {docs : List PendingDoc}
    (htail : 0 < filter.tail)
    (h : resultQuery tools runId (some name) filter none = .ok result) :
    (searchService tools docs runId name ⟨filter, none⟩).map (·.lines)
      = .ok ((shownLines filter.tail (docs.filter result)).map (·.raw)) := by
  rw [searchService, h]
  simp only [Option.isSome_none, Bool.false_eq_true, if_false, if_neg (Nat.ne_of_gt htail)]
  rfl

/-- **THE MODES AGREE**: on entries and truncation with any counts beside them, on filters
    with or without entries, on the lines of `search_service`; and the total is right
    wherever something is asked for, and 0 where nothing is. -/
theorem modes_agree (hcounted : Counted index) (hdocs : index.docs.length ≤ usizeMax)
    (htail : 1 ≤ filter.tail) (hmax : filter.tail ≤ usizeMax) :
    ModesAgree index runId service filter Mode.asks := by
  have hview : ∀ mode, view index runId service filter mode
      = index.count runId (mode.query filter service) := fun mode =>
    queryView_counted hcounted runId _
  cases hresult : resultQuery tools runId service filter none with
  | error err =>
      have herror : ∀ mode, view index runId service filter mode = .error err := fun mode =>
        (hview mode).trans (count_error hresult)
      refine ⟨fun mode mode' _ _ => ?_, fun mode mode' _ => ?_, fun mode _ response h => ?_,
        fun mode _ response h => ?_, fun mode name _ hname => ?_⟩
      · rw [herror, herror]
      · rw [herror, herror]
      · rw [herror] at h
        cases h
      · rw [herror] at h
        cases h
      · subst hname
        rw [herror, searchService, hresult]
        rfl
  | ok result =>
      have hmatching : (index.docs.filter result).length ≤ usizeMax :=
        (List.length_filter_le ..).trans hdocs
      have hshown := fun (mode : Mode) (hentries : mode.entries = true) =>
        facetView_shown hentries hresult hdocs htail hmax
      refine ⟨fun mode mode' h h' => ?_, fun mode mode' hfacets => ?_,
        fun mode hasks response h => ?_, fun mode hasks response h => ?_,
        fun mode name hentries hname => ?_⟩
      · rw [hview, hview, hshown mode h, hshown mode' h']
      · rw [hview, hview, count_ok (by exact hresult), count_ok (by exact hresult)]
        show Except.ok (if mode.facets then _ else _) = Except.ok (if mode'.facets then _ else _)
        rw [hfacets]
        rfl
      · rw [hview, count_ok (by exact hresult)] at h
        obtain rfl := Except.ok.inj h
        rw [Index.exactTotal, matchingDocs_ok (by exact hresult)]
        obtain ⟨entries, facets, total⟩ := mode
        have hshows : (entries && decide (0 < filter.tail)) = entries := by
          rw [decide_eq_true (show 0 < filter.tail from htail), Bool.and_true]
        show (viewSearch (entries && decide (0 < filter.tail)) facets total filter.tail
            (index.docs.filter result)).total
          = if (viewSearch (entries && decide (0 < filter.tail)) facets total filter.tail
              (index.docs.filter result)).totalExact then _ else _
        rw [hshows]
        exact viewSearch_total hmax hmatching hasks
      · -- without a collector set there is nothing to count with
        obtain ⟨entries, facets, total⟩ := mode
        obtain ⟨rfl, rfl, rfl⟩ : entries = false ∧ facets = false ∧ total = false := by
          simpa [Mode.asks] using hasks
        rw [hview, count_ok (by exact hresult)] at h
        obtain rfl := Except.ok.inj h
        exact ⟨rfl, rfl⟩
      · subst hname
        rw [hview, searchService_lines htail hresult]
        have hentriesShown := hshown mode hentries
        cases hcount : index.count runId (mode.query filter (some name)) with
        | error err =>
            rw [hcount] at hentriesShown
            cases hentriesShown
        | ok response =>
            rw [hcount] at hentriesShown
            have heq := congrArg Prod.fst (Except.ok.inj hentriesShown)
            show Except.ok (response.entries.map (·.raw)) = _
            rw [show response.entries = _ from heq, List.map_map]
            rfl

end Modes

-- ── an index with two lines ───────────────────────────────────────────────────

def twoLines : Index plainTools := ⟨[plainDoc 1 0 "a", plainDoc 2 1 "b"], ∅, []⟩

theorem counted_twoLines : Counted twoLines := by
  intro key response h
  cases h

def lastOne : LogFilterQuery := { LogFilterQuery.default with last := some 1 }

/-- The facets of the view are in the cache. -/
def cachedLines : Index plainTools :=
  twoLines.cached "r1" (Mode.query ⟨false, true, true⟩ lastOne (some "web"))

theorem modes_agree_last :
    cachedLines.facetCache.length = 1
      ∧ ModesAgree cachedLines "r1" (some "web") lastOne Mode.asks :=
  ⟨by decide +kernel,
    modes_agree (counted_twoLines.cached _ _) (by decide +kernel) (by decide) (by decide)⟩

/-- **NO TOTAL WHERE NOTHING IS ASKED**: without entries, facets and total it is 0, of two
    documents that match, and does not say that it is exact. -/
theorem nothing_asked_no_total :
    ¬ ModesAgree twoLines "r1" (some "web") lastOne (fun _ => True) := by
  intro h
  exact absurd (h.total ⟨false, false, false⟩ trivial _ rfl) (by decide)

end DevstackLogViews
