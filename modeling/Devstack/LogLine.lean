import Devstack.LogQuery
import Mathlib.Algebra.Group.Int.Defs

/-! # Log lines — the fields of one line

    `src/logfmt.rs`: a line is a JSON object or text, with a timestamp and a stream in
    brackets before it.  `parse_log_line` takes all fields at once; `extract_log_content`,
    `extract_timestamp_str` and `classify_line_level` take one each and parse the line
    again.  They agree: `parse_agrees`.

    The JSON parser, the regular expressions and the parser of timestamps are
    third-party code. -/

namespace DevstackLogLine

open DevstackModel DevstackLogFmt DevstackIngest DevstackLogQuery

/-- What the code looks at in a `serde_json::Value`; `text` is a number's `to_string`. -/
inductive JsonView where
  | null
  | bool (value : Bool)
  | number (text : String) (asI64 : Option Int)
  | string (value : String)
  | array
  | object

/-- The third-party parts: `serde_json`, `regex` and the timestamps of `time`. -/
structure LineTools where
  json : SerdeJson
  view : json.Value → JsonView
  /-- The first group of the first match of a pattern. -/
  captures : String → String → Option String
  timestampNanos : String → Option Int

-- ── levels ────────────────────────────────────────────────────────────────────

/-- A level in brackets at the start of the text. -/
def bracketLevelRe : String :=
  "(?i)^\\s*\\[(error|fatal|panic|warn(?:ing)?|info|debug|trace)\\](?:\\s|$)"

/-- A level at the start of the text, or behind an ISO timestamp. -/
def prefixLevelRe : String :=
  "(?i)^\\s*(?:\\d\x7b4\x7d-\\d\x7b2\x7d-\\d\x7b2\x7dT\\S+\\s+)?"
    ++ "(error|fatal|panic|warn(?:ing)?|info|debug|trace)\\b(?::|\\s|$)"

/-- `u8::to_ascii_lowercase`. -/
def lowerByte (b : UInt8) : UInt8 := if 0x41 ≤ b ∧ b ≤ 0x5A then b + 0x20 else b

/-- `str::to_ascii_lowercase`. -/
def toAsciiLowercase (s : String) : String := String.ofList (s.toList.map Char.toLower)

def eqIgnoreAsciiCase (s t : String) : Bool := toAsciiLowercase s == toAsciiLowercase t

/-- A byte of `[0-9A-Za-z_]`. -/
def isWordChar (b : UInt8) : Bool :=
  (0x30 ≤ b && b ≤ 0x39) || (0x41 ≤ b && b ≤ 0x5A) || (0x61 ≤ b && b ≤ 0x7A) || b == 0x5F

/-- No word character stands right before or behind the match. -/
def hasWordBoundaries (bytes : List UInt8) (start stop : Nat) : Bool :=
  let beforeOk := start == 0 || !(bytes[start - 1]?.any isWordChar)
  let afterOk := stop == bytes.length || !(bytes[stop]?.any isWordChar)
  beforeOk && afterOk

/-- Some occurrence of the keyword, in any case, is a word. -/
def containsKeywordCaseInsensitive (bytes keyword : List UInt8) : Bool :=
  if bytes.length < keyword.length then false
  else
    (List.range (bytes.length - keyword.length + 1)).any (fun start =>
      ((bytes.drop start).take keyword.length).map lowerByte == keyword.map lowerByte
        && hasWordBoundaries bytes start (start + keyword.length))

/-- By the words in the text, the worst one first. -/
def detectLogLevelFast (content : String) : String :=
  let bytes := content.toUTF8.toList
  let contains := fun keyword : String => containsKeywordCaseInsensitive bytes keyword.toUTF8.toList
  if ["error", "fatal", "panic", "exception", "traceback"].any contains then "error"
  else if ["warn", "warning"].any contains then "warn"
  else "info"

/-- The names a level has in text. -/
def normalizePlainTextLevel (level : String) : Option String :=
  if ["error", "fatal", "panic"].any (eqIgnoreAsciiCase level) then some "error"
  else if ["warn", "warning"].any (eqIgnoreAsciiCase level) then some "warn"
  else if eqIgnoreAsciiCase level "info" then some "info"
  else if eqIgnoreAsciiCase level "debug" then some "debug"
  else if eqIgnoreAsciiCase level "trace" then some "trace"
  else none

/-- The numbers that pino writes. -/
def normalizeNumericLevel (level : Int) : Option String :=
  if level = 10 then some "trace"
  else if level = 20 then some "debug"
  else if level = 30 then some "info"
  else if level = 40 then some "warn"
  else if level = 50 ∨ level = 60 then some "error"
  else none

/-- `str::parse::<i64>`. -/
def parseI64 (s : String) : Option Int :=
  let digits := fun cs : List Char =>
    if cs.isEmpty || !cs.all Char.isDigit then none
    else some (cs.foldl (fun n c => 10 * n + (c.toNat - 48)) 0)
  let value : Option Int := match s.toList with
    | '+' :: cs => (digits cs).map Int.ofNat
    | '-' :: cs => (digits cs).map (fun n => -Int.ofNat n)
    | cs => (digits cs).map Int.ofNat
  value.filter (fun n => decide (-2 ^ 63 ≤ n) && decide (n < 2 ^ 63))

/-- A level field that is a string: a number, a known name or kept as it is. -/
def normalizeLevelToken (token : String) : Option String :=
  let lower := toAsciiLowercase (trim token)
  if lower.isEmpty then none
  else
    match parseI64 lower with
    | some num => normalizeNumericLevel num
    | none =>
        if lower = "warning" ∨ lower = "warn" then some "warn"
        else if lower ∈ ["error", "err", "fatal", "panic"] then some "error"
        else if lower = "information" then some "info"
        else some lower

-- ── brackets ──────────────────────────────────────────────────────────────────

/-- What stands before and after the first `]`. -/
def findBracket (cs : List Char) : Option (List Char × List Char) :=
  if ']' ∈ cs then some (cs.takeWhile (· ≠ ']'), (cs.dropWhile (· ≠ ']')).drop 1) else none

/-- What stands in brackets at the start of the line, parsed as a timestamp or not. -/
def extractBracketTimestamp (line : String) : Option String :=
  match line.toList with
  | '[' :: rest => (findBracket rest).map (fun cut => String.ofList cut.1)
  | _ => none

/-- The second bracket, which is the stream, and the text behind it. -/
def extractBracketContent (line : String) : Option (String × String) :=
  match line.toList with
  | '[' :: rest =>
      match findBracket rest with
      | none => none
      | some (_, after) =>
          match after.dropWhile isWhitespace with
          | '[' :: rest2 => (findBracket rest2).map (fun cut =>
              (String.ofList cut.1, String.ofList (cut.2.dropWhile isWhitespace)))
          | _ => none
  | _ => none

-- ── lines ─────────────────────────────────────────────────────────────────────

variable (tools : LineTools)

/-- A level at the start of the text that the words did not tell. -/
def detectLogLevelRegex (content : String) : Option String :=
  match tools.captures bracketLevelRe content with
  | some level => normalizePlainTextLevel level
  | none =>
      match tools.captures prefixLevelRe content with
      | some level => normalizePlainTextLevel level
      | none => none

/-- The patterns are asked only where the words say `info`. -/
def detectLogLevel (content : String) : String :=
  let fastLevel := detectLogLevelFast content
  if fastLevel ≠ "info" then fastLevel else (detectLogLevelRegex tools content).getD "info"

/-- Only a line that begins with a brace is given to the parser. -/
def parseJsonObject (line : String) : Option (BTreeMap tools.json.Value) :=
  let trimmed := trim line
  if trimmed.startsWith "\x7b" then tools.json.parseObject trimmed else none

/-- Strings, numbers and booleans have a text. -/
def valueAsString (value : tools.json.Value) : Option String :=
  match tools.view value with
  | .string s => some s
  | .number text _ => some text
  | .bool b => some (if b then "true" else "false")
  | _ => none

/-- `Value::as_str`. -/
def asStr (value : tools.json.Value) : Option String :=
  match tools.view value with
  | .string s => some s
  | _ => none

/-- A number that is no `i64` has no level. -/
def normalizeLevelValue (value : tools.json.Value) : Option String :=
  match tools.view value with
  | .number _ asI64 => asI64.bind normalizeNumericLevel
  | .string s => normalizeLevelToken s
  | _ => none

/-- `ParsedLogLine`, with the object for the other fields. -/
structure ParsedLine where
  timestamp : Option String
  stream : String
  message : String
  level : String
  json : Option (BTreeMap tools.json.Value)

/-- The level that the text tells, on its stream. -/
def detectedOn (stream content : String) : String :=
  let detected := detectLogLevel tools content
  if detected = "info" ∧ stream = "stderr" then "warn" else detected

/-- `parse_log_line`: all fields from one parse. -/
def parseLogLine (line : String) : ParsedLine tools :=
  match parseJsonObject tools line with
  | some map =>
      { timestamp := ["time", "ts", "timestamp"].findSome?
          (fun field => map[field]?.bind (valueAsString tools))
        stream := ((map["stream"]?.bind (valueAsString tools)).filter (!·.isEmpty)).getD "stdout"
        message := ((map["msg"]?.or map["message"]?).bind (valueAsString tools)).getD line
        level := ((map["level"]?.or map["severity"]?).bind (normalizeLevelValue tools)).getD
          (detectedOn tools ((map["stream"]?.bind (asStr tools)).getD "stdout")
            ((map["msg"]?.bind (asStr tools)).getD ""))
        json := some map }
  | none =>
      let content := (extractBracketContent line).getD ("stdout", line)
      { timestamp := extractBracketTimestamp line
        stream := content.1
        message := content.2
        level := detectedOn tools content.1 content.2
        json := none }

/-- The first timestamp field that has a text, else the bracket. -/
def extractTimestampStr (line : String) : Option String :=
  match parseJsonObject tools line with
  | some map =>
      match ["time", "ts", "timestamp"].findSome?
        (fun field => map[field]?.bind (valueAsString tools)) with
      | some ts => some ts
      | none => extractBracketTimestamp line
  | none => extractBracketTimestamp line

/-- The stream and the message. -/
def extractLogContent (line : String) : String × String :=
  match parseJsonObject tools line with
  | some map =>
      (((map["stream"]?.bind (valueAsString tools)).filter (!·.isEmpty)).getD "stdout",
        ((map["msg"]?.or map["message"]?).bind (valueAsString tools)).getD line)
  | none =>
      match extractBracketContent line with
      | some content => content
      | none => ("stdout", line)

/-- The level field of an object, else what its message tells. -/
def classifyLineLevel (line : String) : String :=
  match parseJsonObject tools line with
  | some map =>
      match (map["level"]?.or map["severity"]?).bind (normalizeLevelValue tools) with
      | some level => level
      | none =>
          detectedOn tools ((map["stream"]?.bind (asStr tools)).getD "stdout")
            ((map["msg"]?.bind (asStr tools)).getD "")
  | none =>
      let content := extractLogContent tools line
      detectedOn tools content.1 content.2

/-! ## One parse or three -/

/-- A line in brackets is no JSON object. -/
theorem parseJsonObject_bracket {line : String} {rest : List Char}
    (h : line.toList = '[' :: rest) : parseJsonObject tools line = none := by
  have hdrop : line.toList.dropWhile isWhitespace = '[' :: rest := by
    rw [h]
    rfl
  have htrim : ∃ rest', (trim line).toList = '[' :: rest' := by
    rw [trim, String.toList_ofList, hdrop]
    rcases List.eq_nil_or_concat rest with rfl | ⟨init, last, rfl⟩
    · exact ⟨[], rfl⟩
    · have hprefix := List.rdropWhile_prefix isWhitespace (l := '[' :: init.concat last)
      cases hcut : List.rdropWhile isWhitespace ('[' :: init.concat last) with
      | nil =>
          have hall := List.rdropWhile_eq_nil_iff.mp hcut '[' List.mem_cons_self
          exact absurd hall (by decide)
      | cons c rest' =>
          rw [hcut] at hprefix
          obtain ⟨rfl, -⟩ := List.cons_prefix_cons.mp hprefix
          exact ⟨rest', rfl⟩
  obtain ⟨rest', htrim⟩ := htrim
  have hbrace : (trim line).startsWith "\x7b" = false := by
    rw [String.startsWith_string_eq_false_iff, htrim]
    rintro ⟨more, hmore⟩
    exact absurd (List.cons.inj hmore).1 (by decide)
  rw [parseJsonObject, hbrace]
  rfl

/-- A JSON object has no timestamp in brackets. -/
theorem extractBracketTimestamp_json {line : String} {map : BTreeMap tools.json.Value}
    (h : parseJsonObject tools line = some map) : extractBracketTimestamp line = none := by
  rw [extractBracketTimestamp]
  split
  · next rest hline =>
      rw [parseJsonObject_bracket tools hline] at h
      exact nomatch h
  · rfl

/-- **ONE PARSE OR THREE**: the fields of `parse_log_line` are those that the other
    functions find one by one. -/
theorem parse_agrees (line : String) :
    parseLogLine tools line
      = { timestamp := extractTimestampStr tools line
          stream := (extractLogContent tools line).1
          message := (extractLogContent tools line).2
          level := classifyLineLevel tools line
          json := parseJsonObject tools line } := by
  rw [parseLogLine, extractTimestampStr, extractLogContent, classifyLineLevel]
  cases hjson : parseJsonObject tools line with
  | none =>
      dsimp only
      rw [extractLogContent, hjson]
      cases extractBracketContent line <;> rfl
  | some map =>
      dsimp only
      rw [extractBracketTimestamp_json tools hjson]
      rw [ParsedLine.mk.injEq]
      refine ⟨?_, rfl, rfl, ?_, rfl⟩
      · cases ["time", "ts", "timestamp"].findSome?
          (fun field => map[field]?.bind (valueAsString tools)) <;> rfl
      · cases (map["level"]?.or map["severity"]?).bind (normalizeLevelValue tools) <;> rfl

/-- For every line, `parse_log_line` tells the timestamp of `extract_timestamp_str`, the
    stream and the message of `extract_log_content` and the level of
    `classify_line_level`. -/
theorem parseLogLine_parts (line : String) :
    (parseLogLine tools line).timestamp = extractTimestampStr tools line
      ∧ ((parseLogLine tools line).stream, (parseLogLine tools line).message)
          = extractLogContent tools line
      ∧ (parseLogLine tools line).level = classifyLineLevel tools line := by
  rw [parse_agrees]
  refine ⟨?_, ?_, ?_⟩ <;> dsimp only

end DevstackLogLine
