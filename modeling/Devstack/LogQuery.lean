import Devstack.Ingest
import Devstack.Lib.TopN
import Mathlib.Data.Int.Order.Basic
import Mathlib.Data.Nat.Basic
import Mathlib.Algebra.GroupWithZero.Nat

/-! # Log queries — the last lines of a service or a run

    `search_service` and `query_view` of `src/infra/logs/index/query.rs`, over the
    indexed documents in the order of their addresses.  The parser of query strings
    and the reader of raw JSON lines are third-party code; the facet counts of a view
    and their cache are left out.

    `TopDocs` orders by one fast field and prefers the lower address among equals.
    Only what it chose is sorted by timestamp and sequence number. -/

namespace DevstackLogQuery

open DevstackModel DevstackLogFmt DevstackIngest DevstackTopN

-- ── api.rs ────────────────────────────────────────────────────────────────────

structure LogFilterQuery where
  last : Option Nat
  since : Option String
  search : Option String
  level : Option String
  stream : Option String

/-- `LogFilterQuery::default()`. -/
def LogFilterQuery.default : LogFilterQuery := ⟨none, none, none, none, none⟩

structure LogsQuery where
  filter : LogFilterQuery
  after : Option Nat

structure LogsResponse where
  lines : List String
  truncated : Bool
  total : Nat
  errorCount : Nat
  warnCount : Nat
  nextAfter : Option Nat
  matchedTotal : Nat
  deriving DecidableEq

structure LogViewQuery where
  filter : LogFilterQuery
  service : Option String
  includeEntries : Bool
  includeFacets : Bool
  includeTotal : Bool

/-- The code a query relies on that is not the repository's. -/
structure QueryTools where
  timestampNanos : String → Option Int
  parseQuery : String → Except String (PendingDoc → Bool)
  Json : Type
  parseObject : String → Option Json

structure LogEntry (tools : QueryTools) where
  ts : String
  service : String
  stream : String
  level : String
  message : String
  raw : String
  json : Option tools.Json
  attributes : BTreeMap String

structure LogViewResponse (tools : QueryTools) where
  entries : List (LogEntry tools)
  truncated : Bool
  total : Nat
  totalExact : Bool

-- ── query.rs ──────────────────────────────────────────────────────────────────

/-- `str::trim`. -/
def trim (text : String) : String :=
  String.ofList ((text.toList.dropWhile isWhitespace).rdropWhile isWhitespace)

/-- `build_scope_query`, as the documents it matches. -/
def buildScopeQuery (runId : String) (service : Option String) (sinceNanos : Option Int)
    (stream : Option String) (afterSeq : Option Nat) (doc : PendingDoc) : Bool :=
  doc.runId == runId
    && service.all (doc.service == ·)
    && stream.all (fun stream => stream.isEmpty || stream == "all" || doc.stream == stream)
    && sinceNanos.all (fun since => decide (since ≤ doc.tsNanos))
    && afterSeq.all (fun after => decide (after < doc.seq))

/-- `add_level_filter`. -/
def addLevelFilter (base : PendingDoc → Bool) (level : String) (doc : PendingDoc) : Bool :=
  let level := trim level
  base doc && (if level = "error" ∨ level = "warn" then doc.level == level else true)

/-- `add_text_query`. -/
def addTextQuery (tools : QueryTools) (base : PendingDoc → Bool) (query : Option String) :
    Except String (PendingDoc → Bool) :=
  match query with
  | none => .ok base
  | some query =>
      let query := trim query
      if query.isEmpty then .ok base
      else
        match tools.parseQuery query with
        | .error err => .error s!"bad_query: {err}"
        | .ok parsed => .ok (fun doc => base doc && parsed doc)

/-- The number of lines asked for. -/
def LogFilterQuery.tail (filter : LogFilterQuery) : Nat := filter.last.getD 500

/-- The filter of a query. -/
def resultQuery (tools : QueryTools) (runId : String) (service : Option String)
    (filter : LogFilterQuery) (after : Option Nat) : Except String (PendingDoc → Bool) :=
  let sinceNanos := filter.since.bind tools.timestampNanos
  let scope := buildScopeQuery runId service sinceNanos filter.stream after
  addTextQuery tools (addLevelFilter scope (filter.level.getD "all")) filter.search

/-- `TopDocs::with_limit(limit)` by `seq`, ascending. -/
def oldestBySeq (limit : Nat) (docs : List PendingDoc) : List PendingDoc :=
  (docs.mergeSort (fun a b => decide (a.seq ≤ b.seq))).take limit

/-- `TopDocs::with_limit(limit)` by `ts_nanos`, descending. -/
def newestByTime (limit : Nat) (docs : List PendingDoc) : List PendingDoc :=
  top PendingDoc.tsNanos limit docs

/-- The final `sort_by` of both queries. -/
def sortByTimeAndSeq (docs : List PendingDoc) : List PendingDoc :=
  ascending PendingDoc.tsNanos PendingDoc.seq docs

/-- The largest `seq` that was seen in the loop over the chosen documents. -/
def nextAfterOf (docs : List PendingDoc) : Option Nat :=
  docs.foldl (fun next doc => some (match next with
    | some value => max value doc.seq
    | none => doc.seq)) none

/-- `search_service`, once its source is ingested. -/
def searchService (tools : QueryTools) (docs : List PendingDoc) (runId service : String)
    (query : LogsQuery) : Except String LogsResponse :=
  match resultQuery tools runId (some service) query.filter query.after with
  | .error err => .error err
  | .ok result =>
      let tail := query.filter.tail
      let scope := docs.filter (buildScopeQuery runId (some service)
        (query.filter.since.bind tools.timestampNanos) query.filter.stream none)
      let matching := docs.filter result
      let chosen :=
        if tail = 0 then []
        else if query.after.isSome then oldestBySeq tail matching
        else newestByTime tail matching
      let lines := if query.after.isSome then chosen else sortByTimeAndSeq chosen
      .ok
        { lines := lines.map (·.raw)
          truncated := decide (tail < matching.length) && decide (0 < tail)
          total := scope.length
          errorCount := (scope.filter (·.level == "error")).length
          warnCount := (scope.filter (·.level == "warn")).length
          nextAfter := nextAfterOf chosen
          matchedTotal := matching.length }

/-- `parse_raw_json_object`. -/
def parseRawJsonObject (tools : QueryTools) (raw : String) : Option tools.Json :=
  let trimmed := trim raw
  if trimmed.startsWith "\x7b" then tools.parseObject trimmed else none

/-- `attributes_from_value`, of the fields a document was added with. -/
def attributesOf (doc : PendingDoc) : BTreeMap String :=
  (doc.dynamicFields.filter (fun field => !field.2.isEmpty)).foldl
    (fun attributes field => attributes.insert field.1 field.2) ∅

def logEntry (tools : QueryTools) (doc : PendingDoc) : LogEntry tools where
  ts := doc.ts
  service := doc.service
  stream := doc.stream
  level := doc.level
  message := doc.message
  raw := doc.raw
  json := parseRawJsonObject tools doc.raw
  attributes := attributesOf doc

/-- `usize::MAX`. -/
def usizeMax : Nat := 2 ^ 64 - 1

/-- What `query_view` searches for, and with which limit; without a total it asks for
    one document more than it shows. -/
structure ViewSearch where
  chosen : List PendingDoc
  total : Nat
  totalExact : Bool
  truncated : Bool

def viewSearch (entries facets total : Bool) (tail : Nat) (matching : List PendingDoc) :
    ViewSearch :=
  match entries, facets, total with
  | true, true, _ | true, false, true =>
      ⟨newestByTime tail matching, matching.length, true, decide (tail < matching.length)⟩
  | true, false, false =>
      let more := min (tail + 1) usizeMax
      let found := newestByTime more matching
      if tail < found.length then ⟨found.take tail, more, false, true⟩
      else ⟨found, found.length, false, false⟩
  | false, true, _ | false, false, true => ⟨[], matching.length, true, false⟩
  | false, false, false => ⟨[], 0, false, false⟩

/-- `query_view`; `hasFacetFields` tells whether there are facet fields in its scope. -/
def queryView (tools : QueryTools) (docs : List PendingDoc) (hasFacetFields : Bool)
    (runId : String) (query : LogViewQuery) : Except String (LogViewResponse tools) :=
  match resultQuery tools runId query.service query.filter none with
  | .error err => .error err
  | .ok result =>
      let tail := query.filter.tail
      let includeEntries := query.includeEntries && decide (0 < tail)
      let includeFacets := query.includeFacets && hasFacetFields
      let search := viewSearch includeEntries includeFacets query.includeTotal tail
        (docs.filter result)
      .ok
        { entries := (sortByTimeAndSeq search.chosen).map (logEntry tools)
          truncated := query.includeEntries && search.truncated
          total := search.total
          totalExact := search.totalExact }

/-! ## The last lines -/

/-- The largest `seq` among documents. -/
def largestSeq (docs : List PendingDoc) : Option Nat := (docs.map (·.seq)).max?

/-- The last `n` of the documents in the order of timestamp and sequence number. -/
def LastLines (n : Nat) (docs shown : List PendingDoc) : Prop :=
  IsLast PendingDoc.tsNanos PendingDoc.seq n docs shown

/-- The documents of one timestamp, in the order of their addresses. -/
def sameTime (t : Int) (docs : List PendingDoc) : List PendingDoc :=
  group PendingDoc.tsNanos t docs

/-- How many of the documents of a timestamp fit, after all that are newer. -/
def room (n : Nat) (t : Int) (docs : List PendingDoc) : Nat :=
  n - above PendingDoc.tsNanos t docs

/-- Where the cut falls among documents of one timestamp, those at lower addresses have
    the larger sequence numbers. -/
def CutByAge (n : Nat) (docs : List PendingDoc) : Prop :=
  ∀ t, ∀ d ∈ (sameTime t docs).take (room n t docs),
    ∀ e ∈ (sameTime t docs).drop (room n t docs), e.seq ≤ d.seq

/-- Among the documents that fit there is one of the largest sequence number. -/
def NewestFits (n : Nat) (docs : List PendingDoc) : Prop :=
  docs = [] ∨ ∃ t, ∃ d ∈ (sameTime t docs).take (room n t docs), ∀ e ∈ docs, e.seq ≤ d.seq

/-- What both queries show of the documents that match. -/
def shownLines (n : Nat) (docs : List PendingDoc) : List PendingDoc :=
  sortByTimeAndSeq (newestByTime n docs)

theorem lastLines_iff (n : Nat) (docs : List PendingDoc) :
    LastLines n docs (shownLines n docs) ↔ CutByAge n docs :=
  isLast_iff PendingDoc.tsNanos PendingDoc.seq n docs

/-- The loop of `search_service` takes the largest sequence number it sees. -/
theorem nextAfterOf_eq (docs : List PendingDoc) : nextAfterOf docs = largestSeq docs := by
  have hloop : ∀ (docs : List PendingDoc) (value : Nat),
      docs.foldl (fun next doc => some (match next with
        | some value => max value doc.seq
        | none => doc.seq)) (some value)
      = some ((docs.map (·.seq)).foldl max value) := by
    intro docs
    induction docs with
    | nil => intro value; rfl
    | cons doc docs ih =>
        intro value
        rw [List.foldl_cons, ih, List.map_cons, List.foldl_cons]
  cases docs with
  | nil => rfl
  | cons doc docs =>
      rw [nextAfterOf, List.foldl_cons, hloop, largestSeq, List.map_cons, List.max?_cons']

theorem mem_newestByTime {n : Nat} {docs : List PendingDoc} {d : PendingDoc} :
    d ∈ newestByTime n docs ↔ d ∈ (sameTime d.tsNanos docs).take (room n d.tsNanos docs) := by
  rw [sameTime, room, ← (take_group PendingDoc.tsNanos d.tsNanos n docs).1, mem_group]
  exact ⟨fun h => ⟨h, rfl⟩, fun h => h.1⟩

/-- A largest element, and nothing else, is what `max?` finds. -/
theorem largestSeq_eq_some {docs : List PendingDoc} {seq : Nat} :
    largestSeq docs = some seq ↔ (∃ d ∈ docs, d.seq = seq) ∧ ∀ e ∈ docs, e.seq ≤ seq := by
  rw [largestSeq, List.max?_eq_some_iff]
  simp

theorem largestSeq_congr {docs docs' : List PendingDoc} (h : ∀ d, d ∈ docs ↔ d ∈ docs') :
    largestSeq docs = largestSeq docs' := by
  ext seq
  simp only [largestSeq_eq_some, h]

/-- A follower that goes on after the largest sequence number shown misses nothing and
    repeats nothing exactly if that is the largest there is. -/
theorem nextAfter_iff (n : Nat) (docs : List PendingDoc) :
    nextAfterOf (newestByTime n docs) = largestSeq docs ↔ NewestFits n docs := by
  have hsub : ∀ d ∈ newestByTime n docs, d ∈ docs := by
    intro d hd
    exact (descending_perm PendingDoc.tsNanos docs).mem_iff.mp (List.mem_of_mem_take hd)
  rw [nextAfterOf_eq]
  constructor
  · intro h
    cases hlargest : largestSeq docs with
    | none =>
        rw [largestSeq, List.max?_eq_none_iff, List.map_eq_nil_iff] at hlargest
        exact .inl hlargest
    | some seq =>
        rw [hlargest, largestSeq_eq_some] at h
        rw [largestSeq_eq_some] at hlargest
        obtain ⟨⟨d, hd, hseq⟩, -⟩ := h
        refine .inr ⟨d.tsNanos, d, mem_newestByTime.mp hd, ?_⟩
        rw [hseq]
        exact hlargest.2
  · rintro (hnil | ⟨t, d, hd, hlargest⟩)
    · subst hnil
      simp [newestByTime, top, descending, largestSeq]
    · have ht : d.tsNanos = t := ((mem_group PendingDoc.tsNanos).mp (List.mem_of_mem_take hd)).2
      subst ht
      have hshown := mem_newestByTime.mpr hd
      have hall : largestSeq docs = some d.seq :=
        largestSeq_eq_some.mpr ⟨⟨d, hsub d hshown, rfl⟩, hlargest⟩
      rw [hall]
      exact largestSeq_eq_some.mpr ⟨⟨d, hshown, rfl⟩, fun e he => hlargest e (hsub e he)⟩

/-- Without a total, one document more is asked for and not shown. -/
theorem take_one_more {n : Nat} (hn : n ≤ usizeMax) (docs : List PendingDoc) :
    (if n < (docs.take (min (n + 1) usizeMax)).length then (docs.take (min (n + 1) usizeMax)).take n
      else docs.take (min (n + 1) usizeMax)) = docs.take n := by
  split
  · rw [List.take_take, Nat.min_eq_left (by omega)]
  · next hlen =>
      rw [List.length_take] at hlen
      rcases Nat.lt_or_ge docs.length (n + 1) with hall | hall
      · rw [List.take_of_length_le (by omega), List.take_of_length_le (by omega)]
      · have heq : min (n + 1) usizeMax = n := by omega
        rw [heq]

theorem viewSearch_chosen {facets total : Bool} {n : Nat} (hn : n ≤ usizeMax)
    (docs : List PendingDoc) :
    (viewSearch true facets total n docs).chosen = newestByTime n docs := by
  cases facets with
  | true => rfl
  | false =>
      cases total with
      | true => rfl
      | false =>
          have hmore : (if n < (newestByTime (min (n + 1) usizeMax) docs).length
              then (newestByTime (min (n + 1) usizeMax) docs).take n
              else newestByTime (min (n + 1) usizeMax) docs) = newestByTime n docs :=
            take_one_more hn _
          rw [viewSearch]
          by_cases hlen : n < (newestByTime (min (n + 1) usizeMax) docs).length
          · rw [if_pos hlen] at hmore
            rw [if_pos hlen]
            exact hmore
          · rw [if_neg hlen] at hmore
            rw [if_neg hlen]
            exact hmore

/-- **WHEN THE LAST N ARE SHOWN.**  Both queries show the last documents that match
    exactly if the cut among documents of one timestamp falls by age, and a follower is
    told the largest sequence number exactly if one that has it fits. -/
theorem last_n_iff (tools : QueryTools) (docs : List PendingDoc) (runId : String) :
    (∀ (service : String) (query : LogsQuery) (result : PendingDoc → Bool)
        (response : LogsResponse), query.after = none → 0 < query.filter.tail →
      resultQuery tools runId (some service) query.filter query.after = .ok result →
      searchService tools docs runId service query = .ok response →
      response.lines = (shownLines query.filter.tail (docs.filter result)).map (·.raw)
        ∧ (LastLines query.filter.tail (docs.filter result)
                (shownLines query.filter.tail (docs.filter result))
              ∧ response.nextAfter = largestSeq (docs.filter result)
            ↔ CutByAge query.filter.tail (docs.filter result)
              ∧ NewestFits query.filter.tail (docs.filter result)))
    ∧ ∀ (hasFacetFields : Bool) (query : LogViewQuery) (result : PendingDoc → Bool)
        (response : LogViewResponse tools), query.includeEntries = true →
      0 < query.filter.tail → query.filter.tail ≤ usizeMax →
      resultQuery tools runId query.service query.filter none = .ok result →
      queryView tools docs hasFacetFields runId query = .ok response →
      response.entries
          = (shownLines query.filter.tail (docs.filter result)).map (logEntry tools)
        ∧ (LastLines query.filter.tail (docs.filter result)
              (shownLines query.filter.tail (docs.filter result))
            ↔ CutByAge query.filter.tail (docs.filter result)) := by
  constructor
  · intro service query result response hafter htail hresult hresponse
    rw [hafter] at hresult
    simp only [searchService, hafter, hresult, Option.isSome_none, Bool.false_eq_true, if_false,
      if_neg (Nat.ne_of_gt htail)] at hresponse
    obtain rfl := Except.ok.inj hresponse
    refine ⟨rfl, ?_⟩
    rw [lastLines_iff]
    exact and_congr_right (fun _ => nextAfter_iff _ _)
  · intro hasFacetFields query result response hentries htail hmax hresult hresponse
    simp only [queryView, hresult, hentries, Bool.true_and, decide_eq_true htail] at hresponse
    obtain rfl := Except.ok.inj hresponse
    refine ⟨?_, lastLines_iff _ _⟩
    simp only [viewSearch_chosen hmax]
    rfl

/-- Documents of different timestamps are never cut apart. -/
theorem cutByAge_of_distinct {docs : List PendingDoc} (h : (docs.map (·.tsNanos)).Nodup)
    (n : Nat) : CutByAge n docs := by
  intro t d hd e he
  have hnodup : ((sameTime t docs).map (·.tsNanos)).Nodup :=
    h.sublist (List.filter_sublist.map _)
  rw [← List.take_append_drop (room n t docs) (sameTime t docs), List.map_append,
    List.nodup_append] at hnodup
  have htime : ∀ {d}, d ∈ sameTime t docs → d.tsNanos = t :=
    fun hd => ((mem_group PendingDoc.tsNanos).mp hd).2
  refine absurd ?_ (hnodup.2.2 d.tsNanos (List.mem_map_of_mem hd) e.tsNanos
    (List.mem_map_of_mem he))
  rw [htime (List.mem_of_mem_take hd), htime (List.mem_of_mem_drop he)]

/-- No query strings and no JSON lines. -/
def plainTools : QueryTools where
  timestampNanos := fun _ => none
  parseQuery := fun _ => .error "unsupported"
  Json := Unit
  parseObject := fun _ => none

/-- The document of one line of a service. -/
def plainDoc (tsNanos : Int) (seq : Nat) (raw : String) : PendingDoc where
  runId := "r1"
  service := "web"
  stream := "stdout"
  level := "info"
  tsNanos := tsNanos
  ts := ""
  seq := seq
  message := raw
  raw := raw
  dynamicFields := []

def lastQuery (n : Nat) : LogsQuery := ⟨{ LogFilterQuery.default with last := some n }, none⟩

/-- What matches a query for the last lines of "web". -/
def lastResult : PendingDoc → Bool :=
  addLevelFilter (buildScopeQuery "r1" (some "web") none none none) "all"

/-- Three lines a second apart: the last two are shown, and followed from the third. -/
theorem last_n_iff_timed :
    LastLines 2 [plainDoc 1 0 "a", plainDoc 2 1 "b", plainDoc 3 2 "c"]
        (shownLines 2 [plainDoc 1 0 "a", plainDoc 2 1 "b", plainDoc 3 2 "c"]) := by
  have hall : [plainDoc 1 0 "a", plainDoc 2 1 "b", plainDoc 3 2 "c"].filter lastResult
      = [plainDoc 1 0 "a", plainDoc 2 1 "b", plainDoc 3 2 "c"] := by decide
  have hlast := ((last_n_iff plainTools [plainDoc 1 0 "a", plainDoc 2 1 "b", plainDoc 3 2 "c"]
    "r1").1 "web" (lastQuery 2) lastResult _ rfl (by decide) rfl rfl).2
  rw [hall] at hlast
  refine (hlast.mpr ⟨cutByAge_of_distinct (by decide) 2, ?_⟩).1
  exact .inr ⟨3, plainDoc 3 2 "c", by decide, by decide⟩

/-- Lines without timestamps: of two, the last one asked for is the first one shown. -/
theorem untimed_shows_first :
    searchService plainTools [plainDoc 0 0 "first", plainDoc 0 1 "second"] "r1" "web"
        (lastQuery 1)
      = .ok ⟨["first"], true, 2, 0, 0, some 0, 2⟩
      ∧ ¬ LastLines 1 [plainDoc 0 0 "first", plainDoc 0 1 "second"]
          (shownLines 1 [plainDoc 0 0 "first", plainDoc 0 1 "second"])
      ∧ largestSeq [plainDoc 0 0 "first", plainDoc 0 1 "second"] = some 1 := by
  have hnewest : newestByTime 1 [plainDoc 0 0 "first", plainDoc 0 1 "second"]
      = [plainDoc 0 0 "first"] := by
    rw [newestByTime, top, descending, List.mergeSort_of_pairwise (by decide)]
    rfl
  have hresult : resultQuery plainTools "r1" (some "web") (lastQuery 1).filter none
      = .ok lastResult := rfl
  have hall : [plainDoc 0 0 "first", plainDoc 0 1 "second"].filter lastResult
      = [plainDoc 0 0 "first", plainDoc 0 1 "second"] := by decide
  refine ⟨?_, ?_, by decide⟩
  · rw [searchService]
    simp only [show (lastQuery 1).after = none from rfl, hresult, hall,
      show (lastQuery 1).filter.tail = 1 from rfl, hnewest]
    simp only [sortByTimeAndSeq, ascending, Option.isSome_none, Bool.false_eq_true, if_false,
      Nat.one_ne_zero, List.mergeSort_singleton]
    decide
  rw [lastLines_iff]
  intro hcut
  exact absurd (hcut 0 (plainDoc 0 0 "first") (by decide) (plainDoc 0 1 "second") (by decide))
    (by decide)

end DevstackLogQuery
