import Devstack.IngestExact
import Devstack.LogLine
import Devstack.Names

/-! # Live tail — the events of a log against its entries in the index

    `read_new_log_events` of `src/daemon/log_tailing.rs` reads what was appended to a
    log at every notification; the ingest reads the same bytes.  The two split lines,
    take the line apart and normalise attribute names each in code of their own.

    * `readNewLogEvents_grown`: the events of a read are those of the lines that were
      finished since the last;
    * `event_of_line`: the event of a line has the fields of its entry, and there is
      no event for a line of which no text is left without its escape sequences;
    * `live_tail_agrees_iff`: so in every run events and entries agree exactly if there
      is no such line; an ingest leaves an entry with an empty text for it. -/

namespace DevstackLiveTail

open DevstackModel DevstackMachine DevstackLines DevstackLossyUtf8 DevstackLogFmt DevstackIngest
open DevstackIngestExact DevstackLogQuery DevstackLogLine
open DevstackNames (nameChars_of_accepted)
open DevstackPrepare (Tools runLogPath joinPath isAbsolute fileStem)
open DevstackExclusivity (validateNameForPathComponent)

variable (tools : LineTools)

-- ── attribute names ───────────────────────────────────────────────────────────

/-- The loop of both functions below; it has seen whether the last character was `_`. -/
def normalizeChars : Bool → List Char → List Char
  | _, [] => []
  | lastWasUnderscore, c :: cs =>
      if c.isAlphanum then c.toLower :: normalizeChars false cs
      else if lastWasUnderscore then normalizeChars true cs
      else '_' :: normalizeChars true cs

def normalizeName (fieldName : String) : Option String :=
  let normalized := ((normalizeChars false fieldName.toList).dropWhile (· == '_')).rdropWhile
    (· == '_')
  if normalized = [] then none else some (String.ofList normalized)

def reservedFields : List String :=
  ["time", "ts", "timestamp", "msg", "message", "level", "severity", "stream", "run_id", "service",
    "ts_nanos", "seq", "raw"]

def shortValue (value : tools.json.Value) : Option String :=
  (valueAsString tools value).filter (fun value => !value.isEmpty && decide (value.length ≤ 256))

/-- The bodies of both loops over an object; the first field of a name wins. -/
def collectField (normalize : String → Option String) (isReserved : String → Bool)
    (toText : tools.json.Value → Option String) (fields : BTreeMap String)
    (field : String × tools.json.Value) : BTreeMap String :=
  match normalize field.1 with
  | none => fields
  | some name =>
      if isReserved name then fields
      else
        match toText field.2 with
        | none => fields
        | some value => if name ∈ fields then fields else fields.insert name value

def collectFields (normalize : String → Option String) (isReserved : String → Bool)
    (toText : tools.json.Value → Option String) (map : BTreeMap tools.json.Value) :
    BTreeMap String :=
  map.toList.foldl (collectField tools normalize isReserved toText) ∅

-- ── schema.rs ─────────────────────────────────────────────────────────────────

def normalizeDynamicFieldName : String → Option String := normalizeName

def isReservedDynamicField (fieldName : String) : Bool := reservedFields.contains fieldName

def dynamicValueToString : tools.json.Value → Option String := shortValue tools

/-- `extract_dynamic_json_fields_from_map`. -/
def extractDynamicJsonFields (map : BTreeMap tools.json.Value) : List (String × String) :=
  (collectFields tools normalizeDynamicFieldName isReservedDynamicField (dynamicValueToString tools)
    map).toList

/-- The fields of a line, as the ingest takes them. -/
def lineFormat : LineFormat where
  parse line :=
    let parsed := parseLogLine tools line
    { stream := parsed.stream
      level := parsed.level
      message := parsed.message
      timestamp := parsed.timestamp
      dynamicFields := (parsed.json.map (extractDynamicJsonFields tools)).getD [] }
  timestampNanos := tools.timestampNanos

/-- The tools of a query over these lines. -/
abbrev queryTools (parseQuery : String → Except String (PendingDoc → Bool)) : QueryTools where
  timestampNanos := tools.timestampNanos
  parseQuery := parseQuery
  Json := BTreeMap tools.json.Value
  parseObject := tools.json.parseObject

-- ── log_tailing.rs ────────────────────────────────────────────────────────────

structure DaemonLogEvent where
  runId : String
  service : String
  ts : String
  stream : String
  level : String
  message : String
  raw : String
  json : Option (BTreeMap tools.json.Value)
  attributes : BTreeMap String

def normalizeLogAttributeName : String → Option String := normalizeName

def isReservedLogAttribute (fieldName : String) : Bool := reservedFields.contains fieldName

def logAttributeValueToString : tools.json.Value → Option String := shortValue tools

def extractLogJson (line : String) : Option (BTreeMap tools.json.Value) :=
  let trimmed := trim line
  if !trimmed.startsWith "\x7b" then none else tools.json.parseObject trimmed

def extractLogAttributes (line : String) : BTreeMap String :=
  let trimmed := trim line
  if !trimmed.startsWith "\x7b" then ∅
  else
    match tools.json.parseObject trimmed with
    | none => ∅
    | some map =>
        collectFields tools normalizeLogAttributeName isReservedLogAttribute
          (logAttributeValueToString tools) map

/-- The event of a line, after its line end was trimmed. -/
def lineEvent (runId service : String) (rawLine : List Char) : Option (DaemonLogEvent tools) :=
  let raw := stripAnsiIfNeeded rawLine
  if raw = [] then none
  else
    let line := String.ofList raw
    let content := extractLogContent tools line
    some
      { runId := runId
        service := service
        ts := (extractTimestampStr tools line).getD ""
        stream := content.1
        level := classifyLineLevel tools line
        message := content.2
        raw := line
        json := extractLogJson tools line
        attributes := extractLogAttributes tools line }

/-- `parse_log_tail_event`. -/
def parseLogTailEvent (runId service : String) (rawLine : List Piece) :
    Option (DaemonLogEvent tools) :=
  lineEvent tools runId service (chars (rawLine.rdropWhile isLineEndPiece))

/-- What `str::lines` cuts off a line. -/
def lineContent (line : List Piece) : List Piece :=
  if line.getLast? = some (ascii newline) then
    let line := line.dropLast
    if line.getLast? = some (ascii 0x0D) then line.dropLast else line
  else line

/-- `read_new_log_events`, with the cursor it leaves. -/
def readNewLogEvents (runId path : String) (file : List UInt8) (offset : Nat) :
    List (DaemonLogEvent tools) × Nat :=
  let offset := if file.length < offset then 0 else offset
  let complete := completePart newline (file.drop offset)
  if complete = [] then ([], offset)
  else
    let lines := (splitInclusive (ascii newline) (scan complete)).map lineContent
    (lines.filterMap (parseLogTailEvent tools runId (fileStem path)),
      offset + complete.length)

/-! ## Logs, their index and a tail -/

/-- The world of the ingest, and the tail of one of its logs with the events it sent. -/
structure Tailed (ix : SearchIndex) where
  world : World ix
  offset : Nat
  events : List (DaemonLogEvent tools)

inductive TailAction where
  /-- A writer appends, or the index ingests. -/
  | world (action : Action)
  /-- The tail is notified of a change of its log. -/
  | notified

/-- `initial_log_tail_cursors`, for the log of `s`. -/
def attach {ix : SearchIndex} (w : World ix) (s : LogSource) : Tailed tools ix :=
  ⟨w, (fileBytes w.files s).length, []⟩

def tailStep (ix : SearchIndex) (cat : Catalogue) (s : LogSource) (t : Tailed tools ix) :
    TailAction → Tailed tools ix
  | .world action => { t with world := step ix (lineFormat tools) cat t.world action }
  | .notified =>
      let read := readNewLogEvents tools s.runId s.path (fileBytes t.world.files s) t.offset
      { t with offset := read.2, events := t.events ++ read.1 }

/-! ## The events of the lines -/

section Events

variable {tools} {runId path : String}

/-- The line end that `str::lines` has left is trimmed with the rest. -/
theorem rdropWhile_lineContent (line : List Piece) :
    (lineContent line).rdropWhile isLineEndPiece = line.rdropWhile isLineEndPiece := by
  have hlast : ∀ (xs : List Piece) (b : UInt8), isLineEndByte b = true →
      xs.getLast? = some (ascii b) →
        xs.dropLast.rdropWhile isLineEndPiece = xs.rdropWhile isLineEndPiece := by
    intro xs b hb hxs
    obtain ⟨init, rfl⟩ := List.getLast?_eq_some_iff.mp hxs
    rw [List.dropLast_concat, List.rdropWhile_concat_pos _ _ _
      ((isLineEndPiece_iff _).mpr ⟨b, hb, rfl⟩)]
  rw [lineContent]
  split
  · next hnl =>
      dsimp only
      split
      · next hcr => rw [hlast _ _ rfl hcr, hlast _ _ rfl hnl]
      · rw [hlast _ _ rfl hnl]
  · rfl

/-- There is no event for a blank line. -/
theorem lineEvent_nil (runId service : String) : lineEvent tools runId service [] = none := by
  rw [lineEvent, stripAnsiIfNeeded_plain List.not_mem_nil]
  rfl

/-- The decoded lines of a complete part are its lines, decoded. -/
theorem splitInclusive_scan {complete : List UInt8} (hfin : rest newline complete = []) :
    splitInclusive (ascii newline) (scan complete)
      = (finished newline complete).map (fun l => scan l ++ [ascii newline]) := by
  obtain ⟨hlines, hrest⟩ := lines_scan newline_lt complete
  rw [splitInclusive, hlines, hrest, hfin, if_pos scan_nil, List.append_nil, List.map_map]
  rfl

/-- The events of a complete part are those of its lines. -/
theorem complete_events {complete : List UInt8} (hfin : rest newline complete = []) :
    ((splitInclusive (ascii newline) (scan complete)).map lineContent).filterMap
        (parseLogTailEvent tools runId (fileStem path))
      = (textLines complete).filterMap (lineEvent tools runId (fileStem path)) := by
  rw [splitInclusive_scan hfin, textLines, List.map_map, List.filterMap_map, List.filterMap_map]
  induction finished newline complete with
  | nil => rfl
  | cons l ls ih =>
      rw [List.filterMap_cons, ih, List.map_cons]
      have hevent : (parseLogTailEvent tools runId (fileStem path) ∘ lineContent
            ∘ fun l => scan l ++ [ascii newline]) l
          = lineEvent tools runId (fileStem path) (chars (scan (l.rdropWhile isLineEndByte))) := by
        show lineEvent tools runId (fileStem path)
          (chars ((lineContent (scan l ++ [ascii newline])).rdropWhile isLineEndPiece)) = _
        rw [rdropWhile_lineContent, trim_line]
      rw [hevent]
      by_cases hblank : l.rdropWhile isLineEndByte = []
      · rw [hblank, List.filter_cons_of_neg (by simp)]
        have hnone : lineEvent tools runId (fileStem path) (chars (scan [])) = none :=
          lineEvent_nil _ _
        rw [hnone]
      · rw [List.filter_cons_of_pos (by simpa using hblank), List.filterMap_cons]
        rfl

/-- **THE EVENTS OF A READ** are those of the lines that were finished since the last. -/
theorem readNewLogEvents_grown (done buffer : List UInt8) :
    readNewLogEvents tools runId path (done ++ buffer) done.length
      = ((textLines buffer).filterMap (lineEvent tools runId (fileStem path)),
          (done ++ completePart newline buffer).length) := by
  have hlong : ¬ (done ++ buffer).length < done.length := by
    rw [List.length_append]
    omega
  rw [readNewLogEvents, if_neg hlong, List.drop_left]
  dsimp only
  by_cases hnone : completePart newline buffer = []
  · -- the line is still open
    rw [if_pos hnone, hnone, List.append_nil,
      textLines_of_not_mem ((completePart_eq_nil newline).mp hnone)]
    rfl
  · rw [if_neg hnone, complete_events (rest_completePart newline buffer), textLines_completePart,
      List.length_append]

end Events

/-! ## Events and entries -/

section Entries

variable {tools}

/-- The fields of a map collected once more are the map. -/
theorem foldl_insert_toList (map : BTreeMap String) :
    map.toList.foldl (fun fields field => fields.insert field.1 field.2) ∅ = map := by
  have hlist : Std.ExtTreeMap.ofList map.toList compare = _ := Std.ExtTreeMap.ofList_eq_foldl
  rw [← hlist]
  refine Std.ExtTreeMap.ext_getElem? fun name => ?_
  cases hname : map[name]? with
  | none =>
      refine Std.ExtTreeMap.getElem?_ofList_of_contains_eq_false (Bool.eq_false_iff.mpr fun hmem => ?_)
      obtain ⟨field, hfield, rfl⟩ := List.mem_map.mp (List.contains_iff_mem.mp hmem)
      rw [Std.ExtTreeMap.mem_toList_iff_getElem?_eq_some.mp hfield] at hname
      exact nomatch hname
  | some value =>
      exact Std.ExtTreeMap.getElem?_ofList_of_mem (Std.ReflCmp.compare_self)
        Std.ExtTreeMap.distinct_keys_toList (Std.ExtTreeMap.mem_toList_iff_getElem?_eq_some.mpr hname)

/-- The values of the collected fields are texts of values of the object. -/
theorem collectField_value {normalize : String → Option String} {isReserved : String → Bool}
    {toText : tools.json.Value → Option String} {P : String → Prop}
    (hP : ∀ value text, toText value = some text → P text) {fields : BTreeMap String}
    (hfields : ∀ (name text : String), fields[name]? = some text → P text)
    (field : String × tools.json.Value) (name text : String)
    (h : (collectField tools normalize isReserved toText fields field)[name]? = some text) :
    P text := by
  rw [collectField] at h
  split at h
  · exact hfields name text h
  · split at h
    · exact hfields name text h
    · split at h
      · exact hfields name text h
      · next text' htext =>
          split at h
          · exact hfields name text h
          · rw [Std.ExtTreeMap.getElem?_insert] at h
            split at h
            · exact Option.some.inj h ▸ hP field.2 text' htext
            · exact hfields name text h

theorem collectFields_value {normalize : String → Option String} {isReserved : String → Bool}
    {toText : tools.json.Value → Option String} {P : String → Prop}
    (hP : ∀ value text, toText value = some text → P text) (map : BTreeMap tools.json.Value) :
    ∀ (name text : String), (collectFields tools normalize isReserved toText map)[name]? = some text →
      P text := by
  rw [collectFields]
  have hstart : ∀ (name text : String), (∅ : BTreeMap String)[name]? = some text → P text := by
    intro name text h
    simp at h
  revert hstart
  generalize (∅ : BTreeMap String) = fields
  induction map.toList generalizing fields with
  | nil => exact id
  | cons field rest ih =>
      intro hfields
      exact ih _ (collectField_value hP hfields field)

theorem shortValue_ne_empty {value : tools.json.Value} {text : String}
    (h : shortValue tools value = some text) : text.isEmpty = false := by
  have hshort := (Option.filter_eq_some_iff.mp h).2
  rw [Bool.and_eq_true, Bool.not_eq_true'] at hshort
  exact hshort.1

/-- What is stored with a document is read back whole if no value is empty. -/
theorem attributesOf_toList {doc : PendingDoc} {fields : BTreeMap String}
    (h : doc.dynamicFields = fields.toList)
    (hvalues : ∀ (name text : String), fields[name]? = some text → text.isEmpty = false) :
    attributesOf doc = fields := by
  have hall : ∀ field ∈ fields.toList, (!field.2.isEmpty) = true := by
    intro field hfield
    rw [Bool.not_eq_true']
    exact hvalues field.1 field.2 (Std.ExtTreeMap.mem_toList_iff_getElem?_eq_some.mp hfield)
  rw [attributesOf, h, List.filter_eq_self.mpr hall]
  exact foldl_insert_toList fields

/-- None of the values the ingest collects is empty. -/
theorem attributesOf_collected {doc : PendingDoc} {map : BTreeMap tools.json.Value}
    (h : doc.dynamicFields = extractDynamicJsonFields tools map) :
    attributesOf doc
      = collectFields tools normalizeDynamicFieldName isReservedDynamicField
          (dynamicValueToString tools) map := by
  have hvalues : ∀ value text, dynamicValueToString tools value = some text → text.isEmpty = false :=
    fun _ _ hvalue => shortValue_ne_empty hvalue
  exact attributesOf_toList h (collectFields_value hvalues map)

variable (parseQuery : String → Except String (PendingDoc → Bool))

/-- The two readers of the object in a line. -/
theorem json_agrees (line : String) :
    parseRawJsonObject (queryTools tools parseQuery) line = extractLogJson tools line := by
  rw [parseRawJsonObject, extractLogJson]
  cases (trim line).startsWith "\x7b" <;> rfl

/-- The two collectors of its attributes. -/
theorem attributes_agree (s : LogSource) (seq : Nat) (line : List Char) :
    attributesOf (lineDoc (lineFormat tools) s seq line)
      = extractLogAttributes tools (String.ofList (stripAnsiIfNeeded line)) := by
  have hdoc : (lineDoc (lineFormat tools) s seq line).dynamicFields
      = ((parseJsonObject tools (String.ofList (stripAnsiIfNeeded line))).map
          (extractDynamicJsonFields tools)).getD [] := by
    rw [lineDoc, lineFormat]
    dsimp only
    rw [parse_agrees]
  rw [extractLogAttributes]
  rw [parseJsonObject] at hdoc
  generalize trim (String.ofList (stripAnsiIfNeeded line)) = trimmed at hdoc ⊢
  cases hbrace : trimmed.startsWith "\x7b" with
  | false =>
      rw [hbrace] at hdoc
      rw [attributesOf, hdoc]
      rfl
  | true =>
      rw [hbrace] at hdoc
      cases hparse : tools.json.parseObject trimmed with
      | none =>
          rw [hparse] at hdoc
          rw [attributesOf, hdoc]
          rfl
      | some map =>
          rw [hparse] at hdoc
          rw [attributesOf_collected hdoc]
          rfl

/-- An event as an entry of its run. -/
def eventEntry (event : DaemonLogEvent tools) :
    String × LogEntry (queryTools tools parseQuery) :=
  (event.runId,
    { ts := event.ts
      service := event.service
      stream := event.stream
      level := event.level
      message := event.message
      raw := event.raw
      json := event.json
      attributes := event.attributes })

/-- A document as an entry of its run. -/
def docEntry (doc : PendingDoc) : String × LogEntry (queryTools tools parseQuery) :=
  (doc.runId, logEntry (queryTools tools parseQuery) doc)

/-- **THE EVENT OF A LINE** has the fields of its entry, if there is an event. -/
theorem event_of_line (s : LogSource) (seq : Nat) (line : List Char) :
    (lineEvent tools s.runId s.service line).map (eventEntry parseQuery)
      = if stripAnsiIfNeeded line = [] then none
        else some (docEntry parseQuery (lineDoc (lineFormat tools) s seq line)) := by
  rw [lineEvent]
  dsimp only
  split
  · rfl
  · have hattributes := @attributes_agree tools s seq line
    have hjson := @json_agrees tools parseQuery (String.ofList (stripAnsiIfNeeded line))
    rw [Option.map_some, docEntry, logEntry, eventEntry, hattributes, lineDoc, lineFormat]
    dsimp only
    rw [parse_agrees, hjson]

/-- Events and entries of consecutive lines: they agree exactly if some text is left of
    every line. -/
theorem events_iff (s : LogSource) (seq : Nat) (lines : List (List Char)) :
    (lines.filterMap (lineEvent tools s.runId s.service)).map (eventEntry parseQuery)
        = (docsFrom (lineFormat tools) s seq lines).map (docEntry parseQuery)
      ↔ ∀ line ∈ lines, stripAnsiIfNeeded line ≠ [] := by
  induction lines generalizing seq with
  | nil => exact ⟨fun _ _ h => (nomatch h), fun _ => rfl⟩
  | cons line lines ih =>
      have hline := @event_of_line tools parseQuery s seq line
      have hrest := ih (seq + 1)
      rw [List.forall_mem_cons, List.filterMap_cons, docsFrom, List.map_cons]
      by_cases hnone : stripAnsiIfNeeded line = []
      · -- an entry without an event: there are fewer events than entries
        rw [if_pos hnone, Option.map_eq_none_iff] at hline
        rw [hline]
        dsimp only
        constructor
        · intro h
          have hlen := congrArg List.length h
          rw [List.length_map, List.length_cons, List.length_map, docsFrom_length] at hlen
          have hle := List.length_filterMap_le (lineEvent tools s.runId s.service) lines
          omega
        · exact fun h => absurd hnone h.1
      · rw [if_neg hnone, Option.map_eq_some_iff] at hline
        obtain ⟨event, hevent, heq⟩ := hline
        rw [hevent]
        dsimp only
        rw [List.map_cons, heq, List.cons_inj_right]
        exact ⟨fun h => ⟨hnone, hrest.mp h⟩, fun h => hrest.mpr h.2⟩

end Entries

/-! ## The name of a log -/

theorem joinPath_toList {base path : String} (hpath : isAbsolute path = false)
    (hbase : base ≠ "") : ∃ dir, (joinPath base path).toList = dir ++ '/' :: path.toList := by
  rw [joinPath, if_neg (by simp [hpath])]
  split
  · next h =>
      rcases h with h | h
      · exact absurd h hbase
      · obtain ⟨dir, hdir⟩ := String.Slice.endsWith_string_iff.mp
          (show base.toSlice.endsWith "/" = true from h)
        have hbase : base.toList = dir ++ ['/'] := by simpa using hdir.symm
        exact ⟨dir, by rw [String.toList_append, hbase, List.append_assoc]; rfl⟩
  · exact ⟨base.toList, by simp⟩

theorem joinPath_ne_empty {base path : String} (hpath : path ≠ "") : joinPath base path ≠ "" := by
  rw [joinPath]
  split
  · exact hpath
  · split <;> simp [hpath]

theorem fileName_eq (dir : List Char) {name : List Char} (hname : '/' ∉ name) :
    (dir ++ '/' :: name).rtakeWhile (· ≠ '/') = name := by
  have hall : ∀ c ∈ name.reverse, decide (c ≠ '/') = true :=
    fun c hc => decide_eq_true fun he => hname (he ▸ List.mem_reverse.mp hc)
  rw [List.rtakeWhile, List.reverse_append, List.reverse_cons, List.append_assoc,
    List.takeWhile_append_of_pos hall, List.singleton_append,
    List.takeWhile_cons_of_neg (by decide), List.append_nil, List.reverse_reverse]

theorem fileStem_log {service path : String} {dir : List Char} (hne : service.toList ≠ [])
    (hslash : '/' ∉ service.toList)
    (hpath : path.toList = dir ++ '/' :: (service ++ ".log").toList) :
    fileStem path = service := by
  have hbefore : ((service ++ ".log").toList.rdropWhile (· ≠ '.')).dropLast = service.toList := by
    rw [String.toList_append]
    show ((service.toList ++ [['.'], ['l'], ['o'], ['g']].flatten).rdropWhile _).dropLast = _
    simp [List.rdropWhile, List.dropWhile]
  have hname : '/' ∉ (service ++ ".log").toList := by
    rw [String.toList_append, List.mem_append]
    exact fun h => h.elim hslash (by decide)
  rw [fileStem, hpath, fileName_eq dir hname, hbefore, if_neg hne, String.ofList_toList]

/-- The log of a service is named after it. -/
theorem fileStem_runLogPath {paths : Tools} {runId service path : String}
    (h : runLogPath paths runId service = .ok path) : fileStem path = service := by
  cases hservice : validateNameForPathComponent "service" service with
  | error err => rw [runLogPath, hservice] at h; exact nomatch h
  | ok _ =>
  cases hrun : validateNameForPathComponent "run id" runId with
  | error err => rw [runLogPath, hservice, hrun] at h; exact nomatch h
  | ok _ =>
  cases hbase : paths.dataDir with
  | error err => rw [runLogPath, hservice, hrun, hbase] at h; exact nomatch h
  | ok base =>
  rw [runLogPath, hservice, hrun, hbase] at h
  obtain ⟨hne, hchars⟩ := nameChars_of_accepted hservice
  have hslash : '/' ∉ service.toList := fun hmem => absurd (hchars _ hmem) (by decide)
  have hfile : isAbsolute (service ++ ".log") = false := by
    rw [isAbsolute, String.startsWith_string_eq_false_iff, String.toList_append]
    rintro ⟨rest, hrest⟩
    cases hlist : service.toList with
    | nil => exact hne hlist
    | cons c cs =>
        rw [hlist] at hrest hslash
        obtain rfl : '/' = c := (List.cons.inj hrest).1
        exact hslash List.mem_cons_self
  obtain ⟨dir, hdir⟩ := joinPath_toList hfile
    (@joinPath_ne_empty (joinPath (joinPath base "runs") runId) "logs" (by decide))
  obtain rfl := Except.ok.inj h
  exact fileStem_log hne hslash hdir

/-! ## Tail and index -/

section Agreement

variable {tools} {ix : SearchIndex} {cat : Catalogue} {s : LogSource}

/-- The tail has read `seen` after `old` and sent its events; the index may be behind. -/
structure TailedTo (s : LogSource) (old seen : List UInt8) (t : Tailed tools ix) : Prop where
  before : old ++ seen <+: fileBytes t.world.files s
  finished : rest newline seen = []
  offset : t.offset = (old ++ seen).length
  events : t.events = (textLines seen).filterMap (lineEvent tools s.runId s.service)
  index : ∃ done, SyncedTo (lineFormat tools) t.world s done

theorem fileBytes_tailStep (t : Tailed tools ix) (a : TailAction) :
    fileBytes t.world.files s <+: fileBytes (tailStep tools ix cat s t a).world.files s := by
  cases a with
  | world action => exact fileBytes_step t.world action s
  | notified => exact List.prefix_rfl

theorem fileBytes_tailRun (actions : List TailAction) (t : Tailed tools ix) :
    fileBytes t.world.files s
      <+: fileBytes (run (tailStep tools ix cat s) t actions).world.files s := by
  induction actions generalizing t with
  | nil => exact List.prefix_rfl
  | cons a actions ih => exact (fileBytes_tailStep t a).trans (ih _)

/-- A read leaves the tail at the last line break. -/
theorem TailedTo.notified (hstem : fileStem s.path = s.service) {old seen : List UInt8}
    {t : Tailed tools ix} (h : TailedTo s old seen t) {buffer : List UInt8}
    (hfile : old ++ seen ++ buffer = fileBytes t.world.files s) :
    TailedTo s old (seen ++ completePart newline buffer)
      (tailStep tools ix cat s t .notified) := by
  have hread := @readNewLogEvents_grown tools s.runId s.path (old ++ seen) buffer
  rw [hfile, ← h.offset, hstem] at hread
  refine ⟨?_, ?_, ?_, ?_, h.index⟩
  · show old ++ (seen ++ completePart newline buffer) <+: fileBytes t.world.files s
    rw [← hfile, ← List.append_assoc]
    exact (List.prefix_append_right_inj _).mpr ⟨_, completePart_append_openPart newline buffer⟩
  · rw [(lines_append newline h.finished _).2, rest_completePart]
  · show (readNewLogEvents _ _ _ _ _).2 = _
    rw [hread, List.append_assoc]
  · show t.events ++ (readNewLogEvents _ _ _ _ _).1 = _
    rw [hread, h.events, textLines_append h.finished, List.filterMap_append, textLines_completePart]

theorem tailed_step (hs : s ∈ cat.sources) (hstem : fileStem s.path = s.service)
    {old seen : List UInt8} {t : Tailed tools ix} (h : TailedTo s old seen t)
    (hutf8 : isUtf8 (completePart newline (fileBytes t.world.files s)) = true) (a : TailAction) :
    ∃ seen', TailedTo s old seen' (tailStep tools ix cat s t a) := by
  cases a with
  | world action =>
      obtain ⟨done, hdone⟩ := h.index
      obtain ⟨done', -, hdone'⟩ := hdone.step hs action hutf8
      exact ⟨seen, h.before.trans (fileBytes_step t.world action s), h.finished, h.offset, h.events,
        done', hdone'⟩
  | notified =>
      obtain ⟨buffer, hfile⟩ := h.before
      exact ⟨_, h.notified hstem hfile⟩

theorem tailed_run (hs : s ∈ cat.sources) (hstem : fileStem s.path = s.service)
    {old : List UInt8} (actions : List TailAction) :
    ∀ (seen : List UInt8) (t : Tailed tools ix), TailedTo s old seen t →
      isUtf8 (completePart newline
        (fileBytes (run (tailStep tools ix cat s) t actions).world.files s)) = true →
      ∃ seen', TailedTo s old seen' (run (tailStep tools ix cat s) t actions) := by
  induction actions with
  | nil => exact fun seen t h _ => ⟨seen, h⟩
  | cons a actions ih =>
      intro seen t h hutf8
      have hnow := isUtf8_of_initial (fileBytes_tailRun (a :: actions) t) hutf8
      obtain ⟨seen', hnext⟩ := tailed_step hs hstem h hnow a
      exact ih seen' _ hnext hutf8

/-- The events sent are the entries of the lines after `old`. -/
def TailAgrees (parseQuery : String → Except String (PendingDoc → Bool)) (s : LogSource)
    (old : List UInt8) (t : Tailed tools ix) : Prop :=
  t.events.map (eventEntry parseQuery)
    = ((docsOf (ix.docs t.world.st.index) s).drop (textLines old).length).map (docEntry parseQuery)

/-- A last read and a last ingest. -/
theorem tail_agrees_iff (parseQuery : String → Except String (PendingDoc → Bool))
    (hstem : fileStem s.path = s.service) {old seen : List UInt8} (hold : rest newline old = [])
    {t : Tailed tools ix} (h : TailedTo s old seen t) {chosen : LogSource → Bool}
    (hs : s ∈ cat.sources.filter chosen) (sizes : LogSource → Nat → Nat) :
    TailAgrees parseQuery s old (tailStep tools ix cat s (tailStep tools ix cat s t .notified)
        (.world (.ingest chosen sizes)))
      ↔ ∀ line ∈ textLines ((fileBytes t.world.files s).drop old.length),
          stripAnsiIfNeeded line ≠ [] := by
  obtain ⟨buffer, hfile⟩ := h.before
  have hread : TailedTo s old _ (tailStep tools ix cat s t .notified) := h.notified hstem hfile
  generalize hnext : tailStep tools ix cat s t .notified = next at hread
  have hworld : next.world = t.world := by rw [← hnext]; rfl
  obtain ⟨done, hdone⟩ := hread.index
  obtain ⟨hdocs, -⟩ := ingest_source sizes hs hdone
  have hlines : textLines (fileBytes t.world.files s)
      = textLines old ++ textLines (seen ++ buffer) := by
    rw [← hfile, List.append_assoc, textLines_append hold]
  have hlen : (docsFrom (lineFormat tools) s 0 (textLines old)).length = (textLines old).length :=
    docsFrom_length _ _ _ _
  rw [hworld, hlines, docsFrom_append, Nat.zero_add] at hdocs
  rw [← hfile, List.append_assoc, List.drop_left, ← events_iff parseQuery s (textLines old).length,
    TailAgrees]
  show List.map _ next.events = ((docsOf (ix.docs (step ix (lineFormat tools) cat next.world
    (.ingest chosen sizes)).st.index) s).drop _).map _ ↔ _
  rw [hworld, hdocs, ← hlen, List.drop_left, hread.events, textLines_append h.finished,
    textLines_append h.finished, textLines_completePart]

end Agreement

/-- **LIVE TAIL AND INDEX AGREE** on what is appended to the log of a service, whatever
    the order of appends, notifications and ingests, if and only if text is left of every
    appended line that is not blank once its escape sequences are stripped. -/
theorem live_tail_agrees_iff (parseQuery : String → Except String (PendingDoc → Bool))
    (ix : SearchIndex) (cat : Catalogue) (files : BTreeMap (List UInt8)) {paths : Tools}
    {runId service path : String} (hpath : runLogPath paths runId service = .ok path)
    {chosen : LogSource → Bool} (sizes : LogSource → Nat → Nat)
    (hs : ⟨runId, service, path⟩ ∈ cat.sources.filter chosen)
    (before : List Action) (actions : List TailAction) :
    let s : LogSource := ⟨runId, service, path⟩
    let w := run (step ix (lineFormat tools) cat) (World.start ix files) before
    let old := fileBytes w.files s
    let final := run (tailStep tools ix cat s) (attach tools w s)
      (actions ++ [.notified, .world (.ingest chosen sizes)])
    rest newline old = [] → isUtf8 (completePart newline (fileBytes final.world.files s)) = true →
      (TailAgrees parseQuery s old final
        ↔ ∀ line ∈ textLines ((fileBytes final.world.files s).drop old.length),
            stripAnsiIfNeeded line ≠ []) := by
  intro s w old final hold hutf8
  have hmem : s ∈ cat.sources := List.mem_of_mem_filter hs
  have hstem : fileStem s.path = s.service := fileStem_runLogPath hpath
  have hfinal : final = tailStep tools ix cat s (tailStep tools ix cat s
      (run (tailStep tools ix cat s) (attach tools w s) actions) .notified)
      (.world (.ingest chosen sizes)) := run_append _ _ actions _
  have hlast : fileBytes final.world.files s
      = fileBytes (run (tailStep tools ix cat s) (attach tools w s) actions).world.files s := by
    rw [hfinal]
    rfl
  rw [hlast] at hutf8
  have hattach : TailedTo s old [] (attach tools w s) :=
    ⟨by rw [List.append_nil]; exact List.prefix_rfl, rfl, by rw [List.append_nil]; rfl, rfl,
      synced_utf8 hmem before (isUtf8_of_initial (fileBytes_tailRun actions (attach tools w s)) hutf8)⟩
  obtain ⟨seen, htailed⟩ := tailed_run hmem hstem actions [] _ hattach hutf8
  rw [hlast, hfinal]
  exact tail_agrees_iff parseQuery hstem hold htailed hs sizes

/-! ## The log of `web` -/

/-- Lines without JSON, levels and timestamps. -/
def plainLines : LineTools where
  json := ⟨Unit, fun _ => (), fun _ => none, fun _ => .ok "\x7b\x7d"⟩
  view := fun _ => .null
  captures := fun _ _ => none
  timestampNanos := fun _ => none

/-- The data directory `/data`; nothing else of it is used. -/
def dataTools : Tools where
  render := fun text _ => .ok text
  dotenv := fun _ => .ok []
  encode := fun payload => payload.cmd.toUTF8.toList
  watchHash := fun _ _ _ _ _ _ => .ok "h1"
  home := none
  vars := fun _ => none
  dataDir := .ok "/data"
  projectHash := fun _ => "0a1b2c3d4e5f"

def webPath : String := "/data/runs/r1/logs/web.log"

def webLog : LogSource := ⟨"r1", "web", webPath⟩

def webLogs : Catalogue := ⟨[webLog], by decide⟩

/-- The parser of query strings is not called. -/
def noQuery : String → Except String (PendingDoc → Bool) := fun _ => .ok (fun _ => true)

/-- `a` is there when the tail is attached; `b` is read in two parts. -/
theorem live_tail_agrees_web :
    let w := run (step listIndex (lineFormat plainLines) webLogs) (World.start listIndex ∅)
      [.append webPath [0x61, 0x0A]]
    let final := run (tailStep plainLines listIndex webLogs webLog) (attach plainLines w webLog)
      ([.world (.append webPath [0x62]), .notified, .world (.append webPath [0x0A])]
        ++ [.notified, .world (.ingest (fun _ => true) (fun _ _ => 3))])
    TailAgrees noQuery webLog (fileBytes w.files webLog) final :=
  (live_tail_agrees_iff plainLines noQuery listIndex webLogs ∅
    (show runLogPath dataTools "r1" "web" = .ok webPath by decide +kernel)
    (fun _ _ => 3) (by decide) [.append webPath [0x61, 0x0A]]
    [.world (.append webPath [0x62]), .notified, .world (.append webPath [0x0A])]
    (by decide +kernel) (by decide +kernel)).mpr (by decide +kernel)

/-- The line `ESC[0m` resets the colours: the index keeps an entry without text for it, the
    tail sends no event. -/
theorem escapes_without_event :
    let w := run (step listIndex (lineFormat plainLines) webLogs) (World.start listIndex ∅) []
    let final := run (tailStep plainLines listIndex webLogs webLog) (attach plainLines w webLog)
      ([.world (.append webPath [0x1B, 0x5B, 0x30, 0x6D, 0x0A])]
        ++ [.notified, .world (.ingest (fun _ => true) (fun _ _ => 3))])
    ¬ TailAgrees noQuery webLog (fileBytes w.files webLog) final := by
  intro w final h
  have hlength := congrArg List.length h
  rw [List.length_map, List.length_map] at hlength
  revert hlength
  decide +kernel

end DevstackLiveTail
