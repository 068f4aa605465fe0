import Devstack.LiveTail

/-! # Log levels — one line, three classifications

    The ingest stores a level with each line.  `src/logs.rs` computes it twice more: from
    a line of a file or of a response (`structured_log_from_raw`, which the trigger of
    auto-share goes through), and from an entry of the index
    (`structured_log_from_entry`).  Both take a level of info for a missing one and look
    for keywords in the message.

    * `shownLevel_eq_iff`: a level is kept unless it is info and hidden by the message;
    * `hides_iff`: on which lines it can be hidden at all;
    * `levels_agree_iff`: the three agree exactly on the lines whose level is not hidden,
      by the message with or without its escape sequences, and is the same when the line
      is stripped once more. -/

namespace DevstackLogLevels

open DevstackModel DevstackLogFmt DevstackIngest DevstackLogQuery DevstackLogLine DevstackLiveTail

variable (tools : LineTools)

-- ── logs.rs ───────────────────────────────────────────────────────────────────

/-- A line as the CLI shows it. -/
structure StructuredLogLine where
  timestamp : Option String
  service : String
  stream : String
  level : Option String
  message : String
  attributes : BTreeMap String

/-- What `normalize_level` takes from the message. -/
def levelOfMessage (message : String) : Option String :=
  if detectLogLevel tools message = "error" then some "error"
  else if detectLogLevel tools message = "warn" then some "warn"
  else none

/-- A level that is info, or blank, is looked up in the message. -/
def normalizeLevel (level : Option String) (message : String) : Option String :=
  match level with
  | some level =>
      let lower := toAsciiLowercase (trim level)
      if lower = "error" ∨ lower = "warn" then some lower
      else if lower = "info" ∨ lower = "" then levelOfMessage tools message
      else some lower
  | none => levelOfMessage tools message

/-- `strip_ansi_if_needed`. -/
def stripped (text : String) : String := String.ofList (stripAnsiIfNeeded text.toList)

/-- From a raw line, which is stripped and parsed here. -/
def structuredLogFromRaw (service line : String) : StructuredLogLine :=
  let clean := stripped line
  let content := extractLogContent tools clean
  { timestamp := extractTimestampStr tools clean
    service := service
    stream := content.1
    level := normalizeLevel tools (some (classifyLineLevel tools clean)) content.2
    message := content.2
    attributes := ∅ }

/-- From an entry of the index, whose level was stored. -/
def structuredLogFromEntry {queries : QueryTools} (entry : LogEntry queries) :
    StructuredLogLine :=
  let message := stripped entry.message
  { timestamp := if (trim entry.ts).isEmpty then none else some entry.ts
    service := entry.service
    stream := if entry.stream.isEmpty then "stdout" else entry.stream
    level := normalizeLevel tools (some entry.level) message
    message := message
    attributes := entry.attributes }

-- ── auto_share.rs ─────────────────────────────────────────────────────────────

/-- The level from which lines are shared. -/
inductive AutoShareLevel where
  | error | warn
  deriving DecidableEq, Repr

/-- Errors match both levels. -/
def thresholdMatches (level : Option String) : AutoShareLevel → Bool
  | .error => level == some "error"
  | .warn => level == some "warn" || level == some "error"

/-- The level of one line in `detect_trigger_level`. -/
def triggerLineLevel (service line : String) : String :=
  (structuredLogFromRaw tools service line).level.getD "info"

/-- The loop of `detect_trigger_level` over the levels of its lines. -/
def triggerLoop (threshold : AutoShareLevel) : Bool → List String → Option AutoShareLevel
  | sawWarn, [] => if sawWarn && threshold == .warn then some .warn else none
  | sawWarn, level :: levels =>
      if level == "error" && thresholdMatches (some "error") threshold then some .error
      else triggerLoop threshold (sawWarn || level == "warn") levels

/-- Over all lines of a poll. -/
def detectTriggerLevel (service : String) (lines : List String) (threshold : AutoShareLevel) :
    Option AutoShareLevel :=
  triggerLoop threshold false (lines.map (triggerLineLevel tools service))

/-! ## Levels that are kept -/

/-- The level of a line is info, and its message tells another. -/
def Hides (level message : String) : Prop :=
  level = "info" ∧ (levelOfMessage tools message).isSome = true

section Levels

/-- A level as it is stored: trimmed, in lower case and not empty. -/
def Normal (level : String) : Prop := toAsciiLowercase (trim level) = level ∧ level ≠ ""

/-- No letter is white space. -/
theorem isWhitespace_of_letter {c : Char} (hlow : 65 ≤ c.toNat) (hhigh : c.toNat ≤ 122) :
    isWhitespace c = false := by
  simp only [isWhitespace, Bool.or_eq_false_iff, Bool.and_eq_false_iff, decide_eq_false_iff_not,
    beq_eq_false_iff_ne]
  omega

/-- `to_ascii_lowercase` moves the upper case letters, and nothing else. -/
theorem toLower_cases (c : Char) :
    c.toLower = c ∨ 65 ≤ c.toNat ∧ c.toNat ≤ 90 ∧ c.toLower.toNat = c.toNat + 32 := by
  by_cases hupper : 'A'.val ≤ c.val ∧ c.val ≤ 'Z'.val
  · have hlow : 65 ≤ c.toNat := UInt32.le_iff_toNat_le.mp hupper.1
    have hhigh : c.toNat ≤ 90 := UInt32.le_iff_toNat_le.mp hupper.2
    have hlower : c.toLower.val = c.val + ('a'.val - 'A'.val) := congrArg Char.val (dif_pos hupper)
    refine .inr ⟨hlow, hhigh, ?_⟩
    show c.toLower.val.toNat = c.val.toNat + 32
    rw [hlower, UInt32.toNat_add, show ('a'.val - 'A'.val).toNat = 32 from rfl]
    exact Nat.mod_eq_of_lt (by have : c.val.toNat ≤ 90 := hhigh; omega)
  · exact .inl (dif_neg hupper)

theorem isWhitespace_toLower (c : Char) : isWhitespace c.toLower = isWhitespace c := by
  rcases toLower_cases c with h | ⟨hlow, hhigh, hlower⟩
  · rw [h]
  · rw [isWhitespace_of_letter hlow (by omega), isWhitespace_of_letter (by omega) (by omega)]

/-- A letter is lowered once. -/
theorem toLower_toLower (c : Char) : c.toLower.toLower = c.toLower := by
  rcases toLower_cases c with h | ⟨hlow, hhigh, hlower⟩
  · rw [h, h]
  · rcases toLower_cases c.toLower with h | ⟨-, hhigh', -⟩
    · exact h
    · omega

/-- Lowering and trimming may change places. -/
theorem map_toLower_trim (cs : List Char) :
    ((cs.dropWhile isWhitespace).rdropWhile isWhitespace).map Char.toLower
      = ((cs.map Char.toLower).dropWhile isWhitespace).rdropWhile isWhitespace := by
  have hcomp : isWhitespace ∘ Char.toLower = isWhitespace := funext isWhitespace_toLower
  rw [List.dropWhile_map, hcomp, List.rdropWhile, List.rdropWhile, ← List.map_reverse,
    List.dropWhile_map, hcomp, List.map_reverse]

/-- What is trimmed stays as it is. -/
theorem trim_trim (cs : List Char) :
    (((cs.dropWhile isWhitespace).rdropWhile isWhitespace).dropWhile isWhitespace).rdropWhile
      isWhitespace = (cs.dropWhile isWhitespace).rdropWhile isWhitespace := by
  have hstart : ((cs.dropWhile isWhitespace).rdropWhile isWhitespace).dropWhile isWhitespace
      = (cs.dropWhile isWhitespace).rdropWhile isWhitespace := by
    have hinitial := List.rdropWhile_prefix isWhitespace (l := cs.dropWhile isWhitespace)
    cases hcut : (cs.dropWhile isWhitespace).rdropWhile isWhitespace with
    | nil => rfl
    | cons c rest =>
        -- the first character is one that was not dropped
        rw [hcut] at hinitial
        obtain ⟨tail, htail⟩ := hinitial
        have hfirst := List.head?_dropWhile_not isWhitespace cs
        rw [← htail] at hfirst
        exact List.dropWhile_cons_of_neg (by simpa using hfirst)
  rw [hstart, List.rdropWhile_idempotent]

/-- A level that was trimmed and lowered is normal. -/
theorem normal_lower {token : String} (h : toAsciiLowercase (trim token) ≠ "") :
    Normal (toAsciiLowercase (trim token)) := by
  refine ⟨?_, h⟩
  simp only [toAsciiLowercase, trim, String.toList_ofList, map_toLower_trim, List.map_map]
  rw [show Char.toLower ∘ Char.toLower = Char.toLower from funext toLower_toLower, trim_trim]

/-- The levels that the code writes itself. -/
def plainLevels : List String := ["error", "warn", "info", "debug", "trace"]

/-- The five levels are normal. -/
theorem normal_plain {level : String} (h : level ∈ plainLevels) : Normal level := by
  simp only [plainLevels, List.mem_cons, List.not_mem_nil, or_false] at h
  rcases h with rfl | rfl | rfl | rfl | rfl <;> exact ⟨by decide, by decide⟩

/-- Numbers stand for these five only. -/
theorem plain_numeric {n : Int} {level : String} (h : normalizeNumericLevel n = some level) :
    level ∈ plainLevels := by
  rw [normalizeNumericLevel] at h
  repeat' split at h
  all_goals first | (rw [← Option.some.inj h]; decide) | cases h

/-- A level field is made normal, also one that is no known level. -/
theorem normal_token {token level : String} (h : normalizeLevelToken token = some level) :
    Normal level := by
  rw [normalizeLevelToken] at h
  split at h
  · exact nomatch h
  · next hempty =>
      cases hnum : parseI64 (toAsciiLowercase (trim token)) with
      | some n =>
          rw [hnum] at h
          exact normal_plain (plain_numeric h)
      | none =>
          rw [hnum] at h
          dsimp only at h
          repeat' split at h
          all_goals first
            | exact normal_plain (by rw [← Option.some.inj h]; decide)
            | rw [← Option.some.inj h]; exact normal_lower (by simpa using hempty)

/-- The names in text stand for these five only. -/
theorem plain_text {text level : String} (h : normalizePlainTextLevel text = some level) :
    level ∈ plainLevels := by
  rw [normalizePlainTextLevel] at h
  repeat' split at h
  all_goals first | (rw [← Option.some.inj h]; decide) | cases h

variable {tools}

/-- A message tells one of the five. -/
theorem plain_detect (content : String) : detectLogLevel tools content ∈ plainLevels := by
  rw [detectLogLevel]
  split
  · rw [detectLogLevelFast]
    split
    · decide
    · split <;> decide
  · have hregex : ∀ level, detectLogLevelRegex tools content = some level → level ∈ plainLevels := by
      intro level h
      rw [detectLogLevelRegex] at h
      split at h
      · exact plain_text h
      · split at h
        · exact plain_text h
        · exact nomatch h
    cases hlevel : detectLogLevelRegex tools content with
    | none => decide
    | some level => exact hregex level hlevel

/-- On either stream. -/
theorem plain_detectedOn (stream content : String) :
    detectedOn tools stream content ∈ plainLevels := by
  rw [detectedOn]
  split
  · decide
  · exact plain_detect content

/-- Every level a line is stored with is trimmed, in lower case and not empty. -/
theorem normal_classify (line : String) : Normal (classifyLineLevel tools line) := by
  rw [classifyLineLevel]
  cases parseJsonObject tools line with
  | none => exact normal_plain (plain_detectedOn _ _)
  | some map =>
      dsimp only
      cases hlevel : (map["level"]?.or map["severity"]?).bind (normalizeLevelValue tools) with
      | none => exact normal_plain (plain_detectedOn _ _)
      | some level =>
          obtain ⟨value, -, hvalue⟩ := Option.bind_eq_some_iff.mp hlevel
          rw [normalizeLevelValue] at hvalue
          split at hvalue
          · next text asI64 hview =>
              obtain ⟨n, -, hn⟩ := Option.bind_eq_some_iff.mp hvalue
              exact normal_plain (plain_numeric hn)
          · exact normal_token hvalue
          · cases hvalue

/-- What is shown for a level and a message, a missing level being info. -/
def shownLevel (tools : LineTools) (level message : String) : String :=
  (normalizeLevel tools (some level) message).getD "info"

/-- A message that tells a level does not tell info. -/
theorem levelOfMessage_ne_info {message level : String}
    (h : levelOfMessage tools message = some level) : level ≠ "info" := by
  rw [levelOfMessage] at h
  repeat' split at h
  all_goals first | (rw [← Option.some.inj h]; decide) | cases h

/-- **A LEVEL IS KEPT** exactly if the message does not hide it. -/
theorem shownLevel_eq_iff {level message : String} (h : Normal level) :
    shownLevel tools level message = level ↔ ¬ Hides tools level message := by
  rw [shownLevel, normalizeLevel, Hides, h.1]
  by_cases hbad : level = "error" ∨ level = "warn"
  · rw [if_pos hbad]
    have hinfo : level ≠ "info" := by
      rcases hbad with rfl | rfl <;> decide
    simp [hinfo]
  · rw [if_neg hbad]
    by_cases hinfo : level = "info"
    · subst hinfo
      rw [if_pos (Or.inl rfl)]
      cases hmessage : levelOfMessage tools message with
      | none => simp
      | some told => simpa using levelOfMessage_ne_info hmessage
    · rw [if_neg (by simp [hinfo, h.2])]
      simp [hinfo]

/-- What is shown of a raw line is the shown level of its parts. -/
theorem shown_raw (service line : String) :
    (structuredLogFromRaw tools service line).level.getD "info"
      = shownLevel tools (classifyLineLevel tools (stripped line))
          (extractLogContent tools (stripped line)).2 := by
  rw [structuredLogFromRaw, shownLevel]

/-- And of an entry, that of its stored level. -/
theorem shown_entry {queries : QueryTools} (entry : LogEntry queries) :
    (structuredLogFromEntry tools entry).level.getD "info"
      = shownLevel tools entry.level (stripped entry.message) := by
  rw [structuredLogFromEntry, shownLevel]

end Levels

/-! ## Three levels of one line -/

/-- A line as the index has it, shown by the CLI from its file and from its entry, and
    inspected by auto-share: the level is the one it was stored with. -/
def LevelsAgree (parseQuery : String → Except String (PendingDoc → Bool)) (source : LogSource)
    (seq : Nat) (rawLine : List Char) : Prop :=
  let doc := lineDoc (lineFormat tools) source seq rawLine
  let entry := logEntry (queryTools tools parseQuery) doc
  (structuredLogFromRaw tools source.service (String.ofList rawLine)).level.getD "info" = doc.level
    ∧ (structuredLogFromEntry tools entry).level.getD "info" = doc.level
    ∧ triggerLineLevel tools source.service doc.raw = doc.level

/-- The level of a line is not hidden by its message, whether or not escape sequences are
    left in it, and a line with escape sequences left in it has the same level without them. -/
def OneLevel (line : String) : Prop :=
  let level := classifyLineLevel tools line
  let message := (extractLogContent tools line).2
  let again := stripped line
  ¬ Hides tools level message ∧ ¬ Hides tools level (stripped message)
    ∧ (again = line
      ∨ shownLevel tools (classifyLineLevel tools again) (extractLogContent tools again).2 = level)

/-- **ONE LEVEL PER LINE**: the three computations agree exactly on the lines whose level is
    not hidden. -/
theorem levels_agree_iff (tools : LineTools)
    (parseQuery : String → Except String (PendingDoc → Bool)) (source : LogSource) (seq : Nat)
    (rawLine : List Char) :
    LevelsAgree tools parseQuery source seq rawLine
      ↔ OneLevel tools (stripped (String.ofList rawLine)) := by
  have hline : stripped (String.ofList rawLine) = String.ofList (stripAnsiIfNeeded rawLine) := by
    rw [stripped, String.toList_ofList]
  have hparsed := parse_agrees tools (String.ofList (stripAnsiIfNeeded rawLine))
  rw [← hline] at hparsed
  have hraw : (lineDoc (lineFormat tools) source seq rawLine).raw
      = stripped (String.ofList rawLine) := by
    rw [lineDoc, hline]
  have hlevel : (lineDoc (lineFormat tools) source seq rawLine).level
      = classifyLineLevel tools (stripped (String.ofList rawLine)) := by
    simp only [lineDoc, lineFormat, ← hline, hparsed]
  have hmessage : (lineDoc (lineFormat tools) source seq rawLine).message
      = (extractLogContent tools (stripped (String.ofList rawLine))).2 := by
    simp only [lineDoc, lineFormat, ← hline, hparsed]
  rw [LevelsAgree, OneLevel]
  rw [shown_raw, shown_entry, triggerLineLevel, shown_raw, hraw]
  dsimp only [logEntry]
  rw [hlevel, hmessage]
  generalize stripped (String.ofList rawLine) = line
  have hnormal : Normal (classifyLineLevel tools line) := normal_classify line
  rw [shownLevel_eq_iff hnormal, shownLevel_eq_iff hnormal]
  refine and_congr_right fun hshown => and_congr_right fun _ => ⟨Or.inr, fun h => ?_⟩
  rcases h with hagain | hagain
  · rw [hagain]
    exact (shownLevel_eq_iff hnormal).mpr hshown
  · exact hagain

/-! ## A line that says info and tells an error -/

/-- What the parsers give for the line below: an object of two texts. -/
def noteTools : LineTools where
  json :=
    { Value := String
      string := id
      parseObject := fun text =>
        if text = "\x7b\"level\":\"info\",\"msg\":\"retry after error\"\x7d" then
          some ((∅ : BTreeMap String).insert "level" "info" |>.insert "msg" "retry after error")
        else none
      printObject := fun _ => .error "not printed" }
  view := .string
  captures := fun _ _ => none
  timestampNanos := fun _ => none

def noteLine : List Char := "\x7b\"level\":\"info\",\"msg\":\"retry after error\"\x7d".toList

/-- **AN EXPLICIT INFO IS OVERRULED**: the index stores info, and the CLI and auto-share see
    an error. -/
theorem explicit_info_overruled :
    ¬ LevelsAgree noteTools (fun _ => .ok (fun _ => true)) ⟨"r1", "api", "/logs/api.log"⟩ 0
        noteLine := by
  rintro ⟨h, -, -⟩
  revert h
  decide +kernel

end DevstackLogLevels
