import Devstack.Lib.FormEncoding
import Devstack.LogViews

/-! # Query strings — a log query on its way to the daemon

    `build_logs_query_string` and `build_log_view_query_string` of
    `src/cli/commands/logs.rs` and `toQueryString` of `devstack-dash/src/lib/api.ts`
    against `LogsQuery` and `LogViewQuery` of `src/api.rs`, which the daemon reads with
    `axum::extract::Query`.  The percent-encoding and the form parser are third-party code.

    The command line leaves out what it takes for a default: an empty text, the level
    `all`, a flag that has its default.  So what the daemon reads is another query
    (`received`), and the point is that its answer is the same (`cli_view_answered`,
    `cli_logs_answered`): for a source the command line answers from the index by itself
    where no daemon runs.  The dashboard leaves out nothing (`dashboard_view_read`). -/

namespace DevstackQueryStrings

open DevstackForm DevstackIngest DevstackLogQuery DevstackFacetCache DevstackLogViews

-- ── api.rs ────────────────────────────────────────────────────────────────────

/-- `usize::from_str`, which is also `u64::from_str`. -/
def parseUsize (text : String) : Option Nat :=
  let digits := match text.toList with
    | '+' :: rest => rest
    | rest => rest
  if digits ≠ [] ∧ digits.all Char.isDigit ∧ Nat.ofDigitChars 10 digits 0 ≤ usizeMax then
    some (Nat.ofDigitChars 10 digits 0)
  else none

/-- `bool::from_str`. -/
def parseBool (text : String) : Option Bool :=
  if text = "true" then some true else if text = "false" then some false else none

/-- The value of a field among the pairs of its names; two are a `duplicate field`. -/
def single : List (String × String) → Option (Option String)
  | [] => some none
  | [pair] => some (some pair.2)
  | _ => none

/-- A field with its aliases. -/
def readText (names : List String) (pairs : List (String × String)) : Option (Option String) :=
  single (pairs.filter (fun pair => names.contains pair.1))

def readValue {α : Type} (fromStr : String → Option α) (names : List String)
    (pairs : List (String × String)) : Option (Option α) :=
  match readText names pairs with
  | none => none
  | some none => some none
  | some (some text) => (fromStr text).map some

/-- The fields of `LogFilterQuery` in both wires. -/
def readFilter (pairs : List (String × String)) : Option LogFilterQuery := do
  let last ← readValue parseUsize ["last", "tail"] pairs
  let since ← readText ["since"] pairs
  let search ← readText ["search", "q"] pairs
  let level ← readText ["level"] pairs
  let stream ← readText ["stream"] pairs
  return ⟨last, since, search, level, stream⟩

/-- `LogsQueryWire::deserialize`; fields of other names are ignored. -/
def readLogsQuery (pairs : List (String × String)) : Option LogsQuery := do
  let filter ← readFilter pairs
  let after ← readValue parseUsize ["after"] pairs
  return ⟨filter, after⟩

/-- `LogViewQueryWire::deserialize`. -/
def readLogViewQuery (pairs : List (String × String)) : Option LogViewQuery := do
  let filter ← readFilter pairs
  let service ← readText ["service"] pairs
  let includeEntries ← readValue parseBool ["include_entries"] pairs
  let includeFacets ← readValue parseBool ["include_facets"] pairs
  let includeTotal ← readValue parseBool ["include_total"] pairs
  return ⟨filter, service, includeEntries.getD true, includeFacets.getD false,
    includeTotal.getD true⟩

/-- What follows the `?`. -/
def queryPart (queryString : String) : List Char := queryString.toList.drop 1

-- ── logs.rs ───────────────────────────────────────────────────────────────────

/-- A key with the value that is pushed for it, where there is one. -/
abbrev Row := String × Option String

/-- `params.push((key, value))`, row by row. -/
def pushed (rows : List Row) : List (String × String) :=
  rows.flatMap (fun row => (row.2.map (fun value => (row.1, value))).toList)

def buildQueryString (codec : Codec) (params : List (String × String)) : String :=
  params.foldl (fun out pair =>
    if pair.2.isEmpty then out
    else
      (if out.isEmpty then out.push '?' else out.push '&') ++ pair.1 ++ "="
        ++ codec.encode pair.2) ""

/-- `push_log_filter_query_params`. -/
def logFilterQueryParams (filter : LogFilterQuery) : List Row :=
  [("last", filter.last.map toString), ("search", filter.search),
    ("level", filter.level.filter (· ≠ "all")), ("stream", filter.stream),
    ("since", filter.since)]

/-- What `build_log_view_query_string` pushes behind the filter. -/
def viewOptionParams (query : LogViewQuery) : List Row :=
  [("service", query.service),
    ("include_entries", if !query.includeEntries then some "false" else none),
    ("include_facets", if query.includeFacets then some "true" else none),
    ("include_total", if !query.includeTotal then some "false" else none)]

def buildLogViewQueryString (codec : Codec) (query : LogViewQuery) : String :=
  buildQueryString codec (pushed (logFilterQueryParams query.filter ++ viewOptionParams query))

def afterParam (query : LogsQuery) : List Row := [("after", query.after.map toString)]

def buildLogsQueryString (codec : Codec) (query : LogsQuery) : String :=
  buildQueryString codec (pushed (logFilterQueryParams query.filter ++ afterParam query))

-- ── api.ts ────────────────────────────────────────────────────────────────────

/-- `URLSearchParams.toString` behind a `?`; values that are `undefined` are left out. -/
def toQueryString (codec : Codec) (params : List (String × String)) : String :=
  if params.isEmpty then "" else "?" ++ String.ofList (render codec params)

/-- `LogFilterParams`, with a flag left out where it is `undefined`. -/
structure LogFilterParams where
  filter : LogFilterQuery
  service : Option String
  includeEntries : Option Bool
  includeFacets : Option Bool
  includeTotal : Option Bool

/-- The parameters of `runLogView` and `sourceLogView`. -/
def viewParams (params : LogFilterParams) : List Row :=
  [("last", params.filter.last.map toString), ("since", params.filter.since),
    ("search", params.filter.search), ("level", params.filter.level),
    ("stream", params.filter.stream), ("service", params.service),
    ("include_entries", params.includeEntries.map toString),
    ("include_facets", params.includeFacets.map toString),
    ("include_total", params.includeTotal.map toString)]

-- ── what arrives ──────────────────────────────────────────────────────────────

/-- An empty text is not sent. -/
def nonEmpty (text : Option String) : Option String := text.filter (fun text => !text.isEmpty)

/-- What the daemon reads of a filter the command line sends. -/
def receivedFilter (filter : LogFilterQuery) : LogFilterQuery :=
  ⟨filter.last, nonEmpty filter.since, nonEmpty filter.search,
    nonEmpty (filter.level.filter (· ≠ "all")), nonEmpty filter.stream⟩

def received (query : LogViewQuery) : LogViewQuery :=
  { query with filter := receivedFilter query.filter, service := nonEmpty query.service }

/-- The numbers are of the types `usize` and `u64`. -/
def Fits (n : Option Nat) : Prop := ∀ value, n = some value → value ≤ usizeMax

instance (n : Option Nat) : Decidable (Fits n) :=
  match n with
  | none => .isTrue fun _ h => by cases h
  | some value =>
      if h : value ≤ usizeMax then .isTrue fun _ heq => Option.some.inj heq ▸ h
      else .isFalse fun hall => h (hall value rfl)

section Params

variable {codec : Codec}

theorem parseUsize_toString {n : Nat} (h : n ≤ usizeMax) : parseUsize (toString n) = some n := by
  have hlist : (toString n).toList = Nat.toDigits 10 n := Nat.toList_repr
  have hdigits : ∀ c ∈ Nat.toDigits 10 n, c.isDigit = true := fun c hc =>
    Nat.isDigit_of_mem_toDigits (by decide) (by decide) hc
  have hsign : (match Nat.toDigits 10 n with
      | '+' :: rest => rest
      | rest => rest) = Nat.toDigits 10 n := by
    split
    · next rest heq =>
        have hplus := hdigits '+' (heq ▸ List.mem_cons_self)
        exact absurd hplus (by decide)
    · rfl
  rw [parseUsize, hlist, hsign]
  simp only [Nat.ofDigitChars_ten_toDigits]
  exact if_pos ⟨Nat.toDigits_ne_nil, List.all_eq_true.mpr hdigits, h⟩

@[simp] theorem single_pushed (row : Row) : single (pushed [row]) = some row.2 := by
  obtain ⟨key, value⟩ := row
  cases value <;> rfl

/-- Pairs chosen by their names are the rows of these names. -/
theorem readText_pushed (names : List String) (rows : List Row) :
    readText names (pushed rows)
      = single (pushed (rows.filter (fun row => names.contains row.1))) := by
  have hrows : (pushed rows).filter (fun pair => names.contains pair.1)
      = pushed (rows.filter (fun row => names.contains row.1)) := by
    induction rows with
    | nil => rfl
    | cons row rows ih =>
        rw [pushed, List.flatMap_cons, List.filter_append, ← pushed, ih, List.filter_cons]
        obtain ⟨key, value⟩ := row
        cases value with
        | none => cases names.contains key <;> rfl
        | some text =>
            show [(key, text)].filter _ ++ _ = _
            rw [List.filter_singleton]
            cases names.contains key <;> rfl
  rw [readText, hrows]

theorem readText_row {names : List String} {rows : List Row} (key : String)
    (value : Option String) (h : rows.filter (fun row => names.contains row.1) = [(key, value)]) :
    readText names (pushed rows) = some value := by
  rw [readText_pushed, h, single_pushed]

/-- The pairs that `build_query_string` keeps. -/
theorem kept_pushed (rows : List Row) :
    (pushed rows).filter (fun pair => !pair.2.isEmpty)
      = pushed (rows.map (fun row => (row.1, nonEmpty row.2))) := by
  induction rows with
  | nil => rfl
  | cons row rows ih =>
      rw [pushed, List.flatMap_cons, List.filter_append, ← pushed, ih]
      obtain ⟨key, value⟩ := row
      cases value with
      | none => rfl
      | some text =>
          show [(key, text)].filter _ ++ _
            = (Option.map _ (nonEmpty (some text))).toList ++ pushed (rows.map _)
          rw [List.filter_singleton, nonEmpty, Option.filter]
          cases text.isEmpty <;> rfl

theorem nonEmpty_number (n : Option Nat) : nonEmpty (n.map toString) = n.map toString := by
  cases n with
  | none => rfl
  | some n => simp [nonEmpty, Option.filter]

theorem plain_pushed {rows : List Row} (h : ∀ key ∈ rows.map Prod.fst, Plain key) :
    ∀ pair ∈ pushed rows, Plain pair.1 := by
  intro pair hmem
  obtain ⟨row, hrow, hpair⟩ := List.mem_flatMap.mp hmem
  obtain ⟨value, -, rfl⟩ := Option.map_eq_some_iff.mp (Option.mem_toList.mp hpair)
  exact h row.1 (List.mem_map_of_mem hrow)

/-- The pairs after the first. -/
theorem foldl_params (codec : Codec) (params : List (String × String)) {out : String}
    (hout : out.isEmpty = false) :
    (params.foldl (fun out pair =>
        if pair.2.isEmpty then out
        else
          (if out.isEmpty then out.push '?' else out.push '&') ++ pair.1 ++ "="
            ++ codec.encode pair.2) out).toList
      = out.toList
        ++ (params.filter (fun pair => !pair.2.isEmpty)).flatMap
            (fun pair => '&' :: field codec pair) := by
  induction params generalizing out with
  | nil => exact (List.append_nil _).symm
  | cons pair params ih =>
      rw [List.foldl_cons]
      by_cases hpair : pair.2.isEmpty
      · rw [if_pos hpair, ih hout, List.filter_cons, if_neg (by rw [hpair]; decide)]
      · have hkept : (!pair.2.isEmpty) = true := by simpa using hpair
        rw [if_neg hpair, if_neg (by rw [hout]; decide), ih (by simp), List.filter_cons,
          if_pos hkept]
        simp [field]

/-- After the `?` come the pairs that are not empty. -/
theorem queryPart_build (codec : Codec) (params : List (String × String)) :
    queryPart (buildQueryString codec params)
      = render codec (params.filter (fun pair => !pair.2.isEmpty)) := by
  induction params with
  | nil => rfl
  | cons pair params ih =>
      by_cases hpair : pair.2.isEmpty
      · rw [List.filter_cons, if_neg (by rw [hpair]; decide), ← ih, buildQueryString,
          List.foldl_cons, if_pos hpair]
        rfl
      · rw [List.filter_cons, if_pos (by simpa using hpair), render_cons, queryPart,
          buildQueryString, List.foldl_cons, if_neg hpair, foldl_params codec params (by simp)]
        simp [field]

theorem readValue_number {names : List String} {pairs : List (String × String)} {n : Option Nat}
    (htext : readText names pairs = some (n.map toString)) (hfits : Fits n) :
    readValue parseUsize names pairs = some n := by
  rw [readValue, htext]
  cases n with
  | none => rfl
  | some n =>
      show (parseUsize (toString n)).map some = _
      rw [parseUsize_toString (hfits n rfl)]
      rfl

theorem readValue_flag {names : List String} {pairs : List (String × String)} {flag : Option Bool}
    (htext : readText names pairs = some (flag.map toString)) :
    readValue parseBool names pairs = some flag := by
  rw [readValue, htext]
  cases flag with
  | none => rfl
  | some flag => cases flag <;> rfl

end Params

-- ── the three ways ────────────────────────────────────────────────────────────

variable {codec : Codec}

/-- What the daemon reads of a query string of the command line. -/
theorem parse_build (h : codec.Lawful) {rows : List Row}
    (hkeys : ∀ key ∈ rows.map Prod.fst, Plain key) :
    parse codec (queryPart (buildQueryString codec (pushed rows)))
      = pushed (rows.map (fun row => (row.1, nonEmpty row.2))) := by
  rw [queryPart_build, kept_pushed]
  refine parse_render h (plain_pushed ?_)
  rw [List.map_map]
  exact hkeys

theorem parse_toQueryString (h : codec.Lawful) {rows : List Row}
    (hkeys : ∀ key ∈ rows.map Prod.fst, Plain key) :
    parse codec (queryPart (toQueryString codec (pushed rows))) = pushed rows := by
  have hpairs := parse_render h (plain_pushed hkeys)
  generalize pushed rows = pairs at hpairs
  cases pairs with
  | nil => rfl
  | cons pair pairs =>
      have hpart :
          queryPart (toQueryString codec (pair :: pairs)) = render codec (pair :: pairs) := by
        simp [queryPart, toQueryString]
      rw [hpart, hpairs]

/-- The rows in which the fields of a filter stand. -/
structure FilterRows (filter : LogFilterQuery) (rows : List Row) : Prop where
  last : rows.filter (fun row => ["last", "tail"].contains row.1)
    = [("last", filter.last.map toString)]
  since : rows.filter (fun row => ["since"].contains row.1) = [("since", filter.since)]
  search : rows.filter (fun row => ["search", "q"].contains row.1) = [("search", filter.search)]
  level : rows.filter (fun row => ["level"].contains row.1) = [("level", filter.level)]
  stream : rows.filter (fun row => ["stream"].contains row.1) = [("stream", filter.stream)]

theorem FilterRows.read {filter : LogFilterQuery} {rows : List Row} (h : FilterRows filter rows)
    (hfits : Fits filter.last) : readFilter (pushed rows) = some filter := by
  rw [readFilter, readValue_number (readText_row _ _ h.last) hfits, readText_row _ _ h.since,
    readText_row _ _ h.search, readText_row _ _ h.level, readText_row _ _ h.stream]
  rfl

/-- The rows of the command line, as they are kept. -/
theorem filterRows_kept (filter : LogFilterQuery) (rest : List Row)
    (hrest : ∀ key ∈ rest.map Prod.fst,
      key ∉ ["last", "tail", "since", "search", "q", "level", "stream"]) :
    FilterRows (receivedFilter filter)
      ((logFilterQueryParams filter ++ rest).map (fun row => (row.1, nonEmpty row.2))) := by
  have hnone : ∀ names : List String,
      names ⊆ ["last", "tail", "since", "search", "q", "level", "stream"] →
      (rest.map (fun row => (row.1, nonEmpty row.2))).filter
        (fun row => names.contains row.1) = [] := by
    intro names hsub
    refine List.filter_eq_nil_iff.mpr fun row hrow hname => ?_
    obtain ⟨row', hrow', rfl⟩ := List.mem_map.mp hrow
    exact hrest row'.1 (List.mem_map_of_mem hrow') (hsub (List.contains_iff_mem.mp hname))
  constructor
  all_goals
    rw [List.map_append, List.filter_append, hnone _ (by decide), List.append_nil]
    simp [logFilterQueryParams, receivedFilter, nonEmpty_number]

/-- A view query is read from its rows. -/
theorem readLogViewQuery_rows {filter : LogFilterQuery} {rows : List Row}
    (service : Option String) (entries facets total : Option Bool)
    (hfilter : FilterRows filter rows) (hfits : Fits filter.last)
    (hservice : rows.filter (fun row => ["service"].contains row.1) = [("service", service)])
    (hentries : rows.filter (fun row => ["include_entries"].contains row.1)
      = [("include_entries", entries.map toString)])
    (hfacets : rows.filter (fun row => ["include_facets"].contains row.1)
      = [("include_facets", facets.map toString)])
    (htotal : rows.filter (fun row => ["include_total"].contains row.1)
      = [("include_total", total.map toString)]) :
    readLogViewQuery (pushed rows)
      = some ⟨filter, service, entries.getD true, facets.getD false, total.getD true⟩ := by
  rw [readLogViewQuery, hfilter.read hfits, readText_row _ _ hservice,
    readValue_flag (readText_row _ _ hentries), readValue_flag (readText_row _ _ hfacets),
    readValue_flag (readText_row _ _ htotal)]
  rfl

/-- A flag that has its default is left out. -/
theorem flag_sent (flag default : Bool) :
    (if flag = default then none else some flag).getD default = flag := by
  cases flag <;> cases default <;> rfl

theorem flag_kept_false (flag : Bool) :
    nonEmpty (if flag = false then some "false" else none)
      = (if flag = true then none else some flag).map toString := by
  cases flag <;> rfl

theorem flag_kept_true (flag : Bool) :
    nonEmpty (if flag = true then some "true" else none)
      = (if flag = false then none else some flag).map toString := by
  cases flag <;> rfl

/-- The view query that the daemon reads of a request of the command line. -/
theorem cli_view_read (h : codec.Lawful) (query : LogViewQuery) (hfits : Fits query.filter.last) :
    readLogViewQuery (parse codec (queryPart (buildLogViewQueryString codec query)))
      = some (received query) := by
  have hkeys : ∀ key ∈ (logFilterQueryParams query.filter ++ viewOptionParams query).map Prod.fst,
      Plain key :=
    show ∀ key ∈ ["last", "search", "level", "stream", "since", "service", "include_entries",
      "include_facets", "include_total"], Plain key by decide
  have hrest : ∀ key ∈ (viewOptionParams query).map Prod.fst,
      key ∉ ["last", "tail", "since", "search", "q", "level", "stream"] :=
    show ∀ key ∈ ["service", "include_entries", "include_facets", "include_total"],
      key ∉ ["last", "tail", "since", "search", "q", "level", "stream"] by decide
  rw [buildLogViewQueryString, parse_build h hkeys,
    readLogViewQuery_rows (nonEmpty query.service)
      (if query.includeEntries = true then none else some query.includeEntries)
      (if query.includeFacets = false then none else some query.includeFacets)
      (if query.includeTotal = true then none else some query.includeTotal)
      (filterRows_kept query.filter _ hrest) hfits, flag_sent, flag_sent, flag_sent]
  · rfl
  · simp [logFilterQueryParams, viewOptionParams]
  · simp [logFilterQueryParams, viewOptionParams, flag_kept_false]
  · simp [logFilterQueryParams, viewOptionParams, flag_kept_true]
  · simp [logFilterQueryParams, viewOptionParams, flag_kept_false]

/-- The query that the daemon reads of a request for the logs of a service. -/
theorem cli_logs_read (h : codec.Lawful) (query : LogsQuery) (hfits : Fits query.filter.last)
    (hafter : Fits query.after) :
    readLogsQuery (parse codec (queryPart (buildLogsQueryString codec query)))
      = some { query with filter := receivedFilter query.filter } := by
  have hkeys : ∀ key ∈ (logFilterQueryParams query.filter ++ afterParam query).map Prod.fst,
      Plain key :=
    show ∀ key ∈ ["last", "search", "level", "stream", "since", "after"], Plain key by decide
  have hrest : ∀ key ∈ (afterParam query).map Prod.fst,
      key ∉ ["last", "tail", "since", "search", "q", "level", "stream"] :=
    show ∀ key ∈ ["after"], key ∉ ["last", "tail", "since", "search", "q", "level", "stream"] by
      decide
  have hrow : ((logFilterQueryParams query.filter ++ afterParam query).map
        (fun row => (row.1, nonEmpty row.2))).filter (fun row => ["after"].contains row.1)
      = [("after", query.after.map toString)] := by
    simp [logFilterQueryParams, afterParam, nonEmpty_number]
  rw [buildLogsQueryString, parse_build h hkeys, readLogsQuery,
    (filterRows_kept query.filter _ hrest).read hfits,
    readValue_number (readText_row _ _ hrow) hafter]
  rfl

/-- The dashboard's parameters are read as they are. -/
theorem dashboard_view_read (h : codec.Lawful) (params : LogFilterParams)
    (hfits : Fits params.filter.last) :
    readLogViewQuery (parse codec (queryPart (toQueryString codec (pushed (viewParams params)))))
      = some ⟨params.filter, params.service, params.includeEntries.getD true,
          params.includeFacets.getD false, params.includeTotal.getD true⟩ := by
  have hkeys : ∀ key ∈ (viewParams params).map Prod.fst, Plain key :=
    show ∀ key ∈ ["last", "since", "search", "level", "stream", "service", "include_entries",
      "include_facets", "include_total"], Plain key by decide
  have hfilter : FilterRows params.filter (viewParams params) := by
    constructor
    all_goals simp [viewParams]
  rw [parse_toQueryString h hkeys]
  refine readLogViewQuery_rows params.service params.includeEntries params.includeFacets
    params.includeTotal hfilter hfits ?_ ?_ ?_ ?_
  all_goals simp [viewParams]

theorem dashboard_view_read_all :
    readLogViewQuery (parse percent (queryPart (toQueryString percent
        (pushed (viewParams ⟨⟨some 9, none, none, some "all", none⟩, none, some true, none, none⟩)))))
      = some ⟨⟨some 9, none, none, some "all", none⟩, none, true, false, true⟩ :=
  dashboard_view_read percent_lawful ⟨⟨some 9, none, none, some "all", none⟩, none, some true,
    none, none⟩ (by decide)

-- ── the answers ───────────────────────────────────────────────────────────────

section Answers

variable (tools : QueryTools)

theorem scope_received (runId : String) (service : Option String) (sinceNanos : Option Int)
    (stream : Option String) (afterSeq : Option Nat) :
    buildScopeQuery runId service sinceNanos (nonEmpty stream) afterSeq
      = buildScopeQuery runId service sinceNanos stream afterSeq := by
  cases stream with
  | none => rfl
  | some stream =>
      rw [nonEmpty, Option.filter]
      cases hempty : stream.isEmpty with
      | false => rfl
      | true =>
          funext doc
          simp [buildScopeQuery, hempty]

/-- Neither `all` nor an empty level filters. -/
theorem level_received (base : PendingDoc → Bool) (level : Option String) :
    addLevelFilter base ((nonEmpty (level.filter (· ≠ "all"))).getD "all")
      = addLevelFilter base (level.getD "all") := by
  cases level with
  | none => rfl
  | some level =>
      by_cases hall : level = "all"
      · subst hall
        rfl
      · by_cases hempty : level = ""
        · subst hempty
          have hnone : (nonEmpty ((some "").filter (· ≠ "all"))).getD "all" = "all" := rfl
          have hblank : trim "" = "" := by decide
          have hword : trim "all" = "all" := by decide
          funext doc
          rw [hnone]
          simp [addLevelFilter, hblank, hword]
        · simp [nonEmpty, Option.filter, hall, hempty]

theorem search_received (base : PendingDoc → Bool) (search : Option String) :
    addTextQuery tools base (nonEmpty search) = addTextQuery tools base search := by
  cases search with
  | none => rfl
  | some search =>
      by_cases hempty : search = ""
      · subst hempty
        have hblank : trim "" = "" := by decide
        show addTextQuery tools base none = _
        simp [addTextQuery, hblank]
      · simp [nonEmpty, Option.filter, hempty]

theorem since_received (hsince : tools.timestampNanos "" = none) (since : Option String) :
    (nonEmpty since).bind tools.timestampNanos = since.bind tools.timestampNanos := by
  cases since with
  | none => rfl
  | some since =>
      by_cases hempty : since = ""
      · subst hempty
        exact hsince.symm
      · simp [nonEmpty, Option.filter, hempty]

/-- What is left out of a filter does not filter. -/
theorem resultQuery_received (hsince : tools.timestampNanos "" = none) (runId : String)
    (service : Option String) (filter : LogFilterQuery) (after : Option Nat) :
    resultQuery tools runId service (receivedFilter filter) after
      = resultQuery tools runId service filter after := by
  rw [resultQuery, resultQuery]
  simp only [receivedFilter, since_received tools hsince, scope_received, level_received,
    search_received]

/-- What is counted for a view is counted for what the daemon reads of it, with the filters
    and whatever the cache has. -/
theorem count_received (hsince : tools.timestampNanos "" = none) (index : Index tools)
    (runId : String) (query : LogViewQuery) :
    index.count runId (received query)
      = index.count runId { query with service := nonEmpty query.service } := by
  rw [Index.count, Index.count, facetView, facetView, queryView, queryView, matchingDocs,
    matchingDocs]
  simp only [received, resultQuery_received tools hsince]
  rfl

/-- A view that the command line asks the daemon for is the one it would take from the index
    itself, entries, total and filters; an empty name of a service is none.  The daemon looks
    for another key in its cache. -/
theorem cli_view_answered (h : codec.Lawful) (hsince : tools.timestampNanos "" = none)
    (index : Index tools) (hcounted : Counted index) (runId : String) (query : LogViewQuery)
    (hfits : Fits query.filter.last) :
    (readLogViewQuery (parse codec (queryPart (buildLogViewQueryString codec query)))).map
        (index.queryView runId)
      = some (index.queryView runId { query with service := nonEmpty query.service }) := by
  rw [cli_view_read h query hfits, Option.map_some, queryView_counted hcounted,
    queryView_counted hcounted, count_received tools hsince]

/-- `--service web --level all --stream "std out" --last 50`, for the facets alone. -/
def webQuery : LogViewQuery where
  filter := ⟨some 50, none, none, some "all", some "std out"⟩
  service := some "web"
  includeEntries := false
  includeFacets := true
  includeTotal := false

/-- A line on the stream, and the facets of the view in the cache. -/
def webIndex : Index plainTools :=
  ({ twoLines with docs := [{ plainDoc 1 0 "a" with stream := "std out" }] }).cached "r1" webQuery

/-- The view itself is in the cache, and the one that the daemon reads is not. -/
theorem cli_view_answered_web :
    buildLogViewQueryString percent webQuery
        = "?last=50&stream=std%20out&service=web&include_entries=false&include_facets=true"
          ++ "&include_total=false"
      ∧ (facetCacheKey "r1" webQuery).map (fun key => (webIndex.facetCache.lookup key).isSome)
        = some true
      ∧ (facetCacheKey "r1" (received webQuery)).map
          (fun key => (webIndex.facetCache.lookup key).isSome) = some false
      ∧ (readLogViewQuery (parse percent (queryPart (buildLogViewQueryString percent webQuery)))).map
          (webIndex.queryView "r1")
        = some (webIndex.queryView "r1" { webQuery with service := nonEmpty webQuery.service }) := by
  have hcounted : Counted webIndex := by
    refine Counted.cached ?_ _ _
    intro key response hlookup
    cases hlookup
  exact ⟨by decide +kernel, by decide +kernel, by decide +kernel,
    cli_view_answered plainTools percent_lawful rfl webIndex hcounted _ _ (by decide)⟩

/-- The logs of a service that the command line asks for are those of its query. -/
theorem cli_logs_answered (h : codec.Lawful) (hsince : tools.timestampNanos "" = none)
    (docs : List PendingDoc) (runId service : String) (query : LogsQuery)
    (hfits : Fits query.filter.last) (hafter : Fits query.after) :
    (readLogsQuery (parse codec (queryPart (buildLogsQueryString codec query)))).map
        (searchService tools docs runId service)
      = some (searchService tools docs runId service query) := by
  rw [cli_logs_read h query hfits hafter, Option.map_some, searchService, searchService,
    resultQuery_received tools hsince]
  simp only [receivedFilter, since_received tools hsince, scope_received]
  rfl

theorem cli_logs_answered_last :
    (readLogsQuery (parse percent (queryPart (buildLogsQueryString percent (lastQuery 2))))).map
        (searchService plainTools [plainDoc 1 0 "a", plainDoc 2 1 "b"] "r1" "web")
      = some (searchService plainTools [plainDoc 1 0 "a", plainDoc 2 1 "b"] "r1" "web"
          (lastQuery 2)) :=
  cli_logs_answered plainTools percent_lawful rfl _ _ _ _ (by decide) (by decide)

end Answers

end DevstackQueryStrings
