import Devstack.LiveTail
import Devstack.Lib.LineReader

/-! # Following a log file — what the CLI prints of a file that changes

    `stream_logs` of `src/logs.rs` prints the end of a log file and then polls it.  A poll
    prints whatever stands behind the offset and sets the offset to the file's length; if
    the file has become shorter, it prints nothing.  It does not wait for its writes: the
    text of a line and its end go through two standard outputs that are not flushed, and
    reach the terminal in steps of their own, in any order.

    * `lines_complete`: the lines of a text that ends at a line end are its finished lines;
    * `Kept`: unless the file was cut off, the lines in front of the offset are the lines
      told;
    * `prints_once_along`: so the tail and every line after it are printed once, whole and
      in order, if the file is UTF-8 at the start, each poll that finds something new
      begins and ends at a line end, no line is finished between a truncation and the
      poll that notices it, and the writes arrive in the order in which they were made. -/

namespace DevstackFileFollow

open DevstackModel DevstackMachine DevstackLines DevstackLineReader DevstackLossyUtf8
open DevstackLogFmt DevstackIngest DevstackIngestExact DevstackLogQuery DevstackLogLine
open DevstackLiveTail

-- ── logfmt.rs: health checks ──────────────────────────────────────────────────

/-- `str::contains`. -/
def containsText (text needle : List Char) : Bool := text.tails.any (needle.isPrefixOf ·)

def containsRequestForEndpoint (message : List Char) (method endpoint : String) : Bool :=
  let needle := method.toList ++ ' ' :: endpoint.toList
  message.tails.any fun found =>
    needle.isPrefixOf found &&
      match found[needle.length]? with
      | none => true
      | some boundary => boundary ∈ [' ', '?', '/', '"', '\'']

def isHealthCheckMessage (message : String) : Bool :=
  let lower := (toAsciiLowercase message).toList
  ["kube-probe", "liveness probe", "readiness probe", "startup probe"].any
      (fun probe => containsText lower probe.toList)
    || ["get", "head", "options"].any fun method =>
      ["/health", "/api/health", "/healthz", "/livez", "/readyz", "/liveness", "/readiness"].any
        fun endpoint => containsRequestForEndpoint lower method endpoint

variable (tools : LineTools)

def isHealthCheckLine (line : String) : Bool :=
  isHealthCheckMessage (extractLogContent tools line).2

-- ── logs.rs ───────────────────────────────────────────────────────────────────

inductive LogOutputFormat where
  | text
  | json
  deriving DecidableEq, Repr

/-- The attributes of a raw line are empty and not printed. -/
structure StructuredLogLine where
  timestamp : Option String
  service : String
  stream : String
  level : Option String
  message : String

/-- The level of a line and what the message tells if it is `info`. -/
def normalizeLevel (level : String) (message : String) : Option String :=
  let lower := toAsciiLowercase (trim level)
  if lower ≠ "info" ∧ lower ≠ "" then some lower
  else
    let detected := detectLogLevel tools message
    if detected = "error" ∨ detected = "warn" then some detected else none

def structuredLogFromRaw (service : String) (line : List Char) : StructuredLogLine :=
  let clean := String.ofList (stripAnsiIfNeeded line)
  let content := extractLogContent tools clean
  { timestamp := extractTimestampStr tools clean
    service := service
    stream := content.1
    level := normalizeLevel tools (classifyLineLevel tools clean) content.2
    message := content.2 }

/-- What the options of a call fix; `toJson` is `serde_json::to_string` on a line. -/
structure Output where
  service : String
  format : LogOutputFormat
  noHealth : Bool
  toJson : StructuredLogLine → String

variable (out : Output)

def renderLogLine (line : List Char) : Option String :=
  if out.noHealth && isHealthCheckLine tools (String.ofList line) then none
  else
    match out.format with
    | .text => some (String.ofList line)
    | .json => some (out.toJson (structuredLogFromRaw tools out.service line))

/-- `print_line`: what `println!` is given. -/
def printLine (line : List Char) : List Char :=
  match renderLogLine tools out line with
  | some output => output.toList ++ ['\n']
  | none => []

/-- `write_line_async`: its writes. -/
def writeLineAsync (line : List Char) : List (List Char) :=
  match renderLogLine tools out line with
  | some output => [output.toList, ['\n']]
  | none => []

/-- `str::lines` of a decoded text. -/
def linesOf (bytes : List UInt8) : List (List Char) :=
  ((splitInclusive (ascii newline) (scan bytes)).map lineContent).map chars

/-- The last `tail` lines, or all. -/
def lastLines (tail : Option Nat) (lines : List (List Char)) : List (List Char) :=
  match tail with
  | some n => lines.drop (lines.length - n)
  | none => lines

/-- `read_to_string` with its default. -/
def readToString (file : List UInt8) : List UInt8 := if isUtf8 file then file else []

/-- A followed file, what standard output was given, and the writes that are on their way:
    tokio writes on another thread, and only a flush waits for it. -/
structure Follow where
  file : List UInt8
  offset : Nat
  stdout : List Char
  inFlight : List (List Char)

/-- `stream_logs` up to its loop. -/
def streamLogs (file : List UInt8) (tail : Option Nat) : Follow :=
  let content := readToString file
  ⟨file, content.length, (lastLines tail (linesOf content)).flatMap (printLine tools out), []⟩

def readNewLines (f : Follow) : Follow :=
  if f.file.length < f.offset then { f with offset := f.file.length }
  else if f.file.length = f.offset then f
  else
    { f with
      offset := f.file.length
      inFlight := f.inFlight ++ (linesOf (f.file.drop f.offset)).flatMap (writeLineAsync tools out) }

/-- One of the writes on their way reaches standard output. -/
def Follow.arrive (f : Follow) (i : Nat) : Follow :=
  { f with stdout := f.stdout ++ f.inFlight.getD i [], inFlight := f.inFlight.eraseIdx i }

/-! ## A file that changes -/

/-- The file and its follower, the lines that are to be printed, and whether the file was
    cut off in front of the offset since the last poll. -/
structure Followed where
  follow : Follow
  reading : Reading newline
  cut : Bool

inductive FileAction where
  | append (bytes : List UInt8)
  | truncate (length : Nat)
  | poll
  | arrive (i : Nat)

def started (file : List UInt8) (tail : Option Nat) : Followed :=
  ⟨streamLogs tools out file tail, .start file, false⟩

def step (s : Followed) : FileAction → Followed
  | .append bytes =>
      ⟨{ s.follow with file := s.follow.file ++ bytes }, s.reading.append bytes, s.cut⟩
  | .truncate n =>
      ⟨{ s.follow with file := s.follow.file.take n }, s.reading.cut n,
        s.cut || decide ((s.follow.file.take n).length < s.follow.offset)⟩
  | .poll => ⟨readNewLines tools out s.follow, s.reading.tell, false⟩
  | .arrive i => { s with follow := s.follow.arrive i }

/-! ## Every line once -/

/-- A finished line as `str::lines` gives it. -/
def completeLine (line : List UInt8) : List Char := chars (lineContent (scan line ++ [ascii newline]))

/-- What is printed of lines. -/
def printedLines (lines : List (List UInt8)) : List Char :=
  lines.flatMap (fun line => printLine tools out (completeLine line))

/-- The requested tail of the file, with every byte decoded, and the lines told since. -/
def toPrint (file : List UInt8) (tail : Option Nat) (s : Followed) : List Char :=
  (lastLines tail (linesOf file)).flatMap (printLine tools out)
    ++ printedLines tools out s.reading.lines

/-- Standard output begins so, and is so when no write is on its way. -/
def Printed (file : List UInt8) (tail : Option Nat) (s : Followed) : Prop :=
  s.follow.stdout <+: toPrint tools out file tail s
    ∧ (s.follow.inFlight = [] → s.follow.stdout = toPrint tools out file tail s)

/-- After the step every line that was due is printed, once, whole and in order. -/
def PrintsOnce (file : List UInt8) (tail : Option Nat) (s : Followed) (a : FileAction) : Prop :=
  Printed tools out file tail (step tools out s a)

/-- What is needed of a poll: if the file has grown beyond the offset, it was not cut off
    before, and the new part begins and ends at a line end; if the file was cut off, no line
    is finished since.  And of an arrival: it is the oldest write. -/
def Orderly (s : Followed) : FileAction → Prop
  | .append _ | .truncate _ => True
  | .arrive i => i = 0
  | .poll =>
      (s.follow.offset < s.follow.file.length → s.cut = false
        ∧ rest newline (s.follow.file.take s.follow.offset) = [] ∧ rest newline s.follow.file = [])
      ∧ (s.cut = true → s.reading.due = [])

instance : ∀ (s : Followed) (a : FileAction), Decidable (Orderly s a)
  | _, .append _ | _, .truncate _ => .isTrue trivial
  | _, .arrive i => inferInstanceAs (Decidable (i = 0))
  | _, .poll => inferInstanceAs (Decidable (_ ∧ _))

variable {tools out}

/-! ## One poll -/

/-- **COMPLETE LINES**: the lines of a text that ends at a line end are its finished lines. -/
theorem lines_complete {bytes : List UInt8} (h : rest newline bytes = []) :
    linesOf bytes = (finished newline bytes).map completeLine := by
  rw [linesOf, splitInclusive_scan h, List.map_map, List.map_map]
  rfl

/-- The writes of a line are the line printed. -/
theorem writeLineAsync_flatten (line : List Char) :
    (writeLineAsync tools out line).flatten = printLine tools out line := by
  rw [writeLineAsync, printLine]
  cases renderLogLine tools out line with
  | none => rfl
  | some output => simp

theorem writes_complete {bytes : List UInt8} (h : rest newline bytes = []) :
    ((linesOf bytes).flatMap (writeLineAsync tools out)).flatten
      = printedLines tools out (finished newline bytes) := by
  rw [lines_complete h, printedLines, List.flatMap_def, List.flatMap_def, List.flatten_flatten,
    List.map_map, List.map_map]
  exact congrArg List.flatten (List.map_congr_left fun line _ => writeLineAsync_flatten _)

theorem printedLines_append (lines lines' : List (List UInt8)) :
    printedLines tools out (lines ++ lines')
      = printedLines tools out lines ++ printedLines tools out lines' := List.flatMap_append

/-! ## The offset and the lines told -/

section Invariant

variable {file : List UInt8} {tail : Option Nat} {s : Followed}

variable (tools out file tail) in
/-- What was printed and is on its way, in the order in which it was made, is what is to be
    printed; unless the file was cut off, the finished lines in front of the offset are those
    told. -/
structure Kept (s : Followed) : Prop where
  content : s.follow.file = s.reading.content
  printed : s.follow.stdout ++ s.follow.inFlight.flatten = toPrint tools out file tail s
  offset_le : s.cut = false → s.follow.offset ≤ s.follow.file.length
  told : s.cut = false →
    (finished newline (s.follow.file.take s.follow.offset)).length = s.reading.told

theorem kept_started (hutf8 : isUtf8 file = true) (tail : Option Nat) :
    Kept tools out file tail (started tools out file tail) := by
  have hcontent : readToString file = file := if_pos hutf8
  refine ⟨rfl, ?_, fun _ => ?_, fun _ => ?_⟩
  · show (lastLines tail (linesOf (readToString file))).flatMap _ ++ [] = _ ++ []
    rw [hcontent]
  · exact Nat.le_of_eq (congrArg List.length hcontent)
  · show (finished newline (file.take (readToString file).length)).length = _
    rw [hcontent, List.take_length]
    rfl

theorem Kept.shows (h : Kept tools out file tail s) : Printed tools out file tail s := by
  refine ⟨⟨_, h.printed⟩, fun hnone => ?_⟩
  rw [← h.printed, hnone, List.flatten_nil, List.append_nil]

theorem Kept.append (h : Kept tools out file tail s) (bytes : List UInt8) :
    Kept tools out file tail (step tools out s (.append bytes)) := by
  refine ⟨congrArg (· ++ bytes) h.content, h.printed, fun hcut => ?_, fun hcut => ?_⟩
  · show s.follow.offset ≤ (s.follow.file ++ bytes).length
    rw [List.length_append]
    exact Nat.le_trans (h.offset_le hcut) (Nat.le_add_right _ _)
  · show (finished newline ((s.follow.file ++ bytes).take s.follow.offset)).length = s.reading.told
    rw [List.take_append_of_le_length (h.offset_le hcut)]
    exact h.told hcut

theorem Kept.truncate (h : Kept tools out file tail s) (n : Nat) :
    Kept tools out file tail (step tools out s (.truncate n)) := by
  refine ⟨congrArg (List.take n) h.content, h.printed, fun hcut => ?_, fun hcut => ?_⟩
  all_goals
    obtain ⟨hold, hlong⟩ := Bool.or_eq_false_iff.mp
      (show (s.cut || decide ((s.follow.file.take n).length < s.follow.offset)) = false from hcut)
    have hlong := Nat.le_of_not_lt (of_decide_eq_false hlong)
  · exact hlong
  · have hlength : (s.follow.file.take n).length = min n s.follow.file.length := List.length_take
    have htake : (s.follow.file.take n).take s.follow.offset
        = s.follow.file.take s.follow.offset := by
      rw [List.take_take, Nat.min_eq_left (by omega)]
    -- the lines told are finished in what is left
    have htold : s.reading.told ≤ (finished newline (s.reading.content.take n)).length := by
      rw [← h.told hold, ← h.content, ← htake]
      exact (prefix_finished newline (List.take_prefix _ _)).length_le
    show (finished newline ((s.follow.file.take n).take s.follow.offset)).length
      = min s.reading.told (finished newline (s.reading.content.take n)).length
    rw [htake, Nat.min_eq_left htold]
    exact h.told hold

/-- **THE OLDEST WRITE** arrives. -/
theorem Kept.arrive (h : Kept tools out file tail s) :
    Kept tools out file tail (step tools out s (.arrive 0)) := by
  refine ⟨h.content, ?_, h.offset_le, h.told⟩
  have hprinted := h.printed
  show (s.follow.stdout ++ s.follow.inFlight.getD 0 []) ++ (s.follow.inFlight.eraseIdx 0).flatten
    = toPrint tools out file tail s
  cases hflight : s.follow.inFlight with
  | nil =>
      rw [hflight] at hprinted
      rw [List.getD_nil, List.append_nil]
      exact hprinted
  | cons write writes =>
      rw [hflight, List.flatten_cons] at hprinted
      rw [List.getD_cons_zero, List.eraseIdx_cons_zero, List.append_assoc]
      exact hprinted

/-- What was printed with what is due now. -/
theorem Kept.printed_tell (h : Kept tools out file tail s) {writes : List (List Char)}
    (hwrites : writes.flatten = printedLines tools out s.reading.due) :
    s.follow.stdout ++ (s.follow.inFlight ++ writes).flatten
      = (lastLines tail (linesOf file)).flatMap (printLine tools out)
        ++ printedLines tools out (s.reading.lines ++ s.reading.due) := by
  rw [List.flatten_append, ← List.append_assoc, h.printed, hwrites, printedLines_append,
    toPrint, List.append_assoc]

/-- **ONE POLL** writes what is due and stands at the end of the file. -/
theorem Kept.poll_writes (h : Kept tools out file tail s) (hok : Orderly s .poll) :
    ∃ writes, readNewLines tools out s.follow
        = ⟨s.follow.file, s.follow.file.length, s.follow.stdout, s.follow.inFlight ++ writes⟩
      ∧ writes.flatten = printedLines tools out s.reading.due := by
  obtain ⟨hgrown, hcut⟩ := hok
  have hdue : s.reading.due = (finished newline s.follow.file).drop s.reading.told := by
    rw [h.content]
    rfl
  -- a file that has not grown beyond the offset has nothing that is due
  have hnone : ¬ s.follow.offset < s.follow.file.length → s.reading.due = [] := by
    intro hle
    cases hold : s.cut with
    | true => exact hcut hold
    | false =>
        rw [hdue, ← h.told hold, List.take_of_length_le (Nat.le_of_not_lt hle), List.drop_length]
  rw [readNewLines]
  by_cases hshort : s.follow.file.length < s.follow.offset
  · rw [if_pos hshort, hnone (by omega)]
    exact ⟨[], by rw [List.append_nil], rfl⟩
  · rw [if_neg hshort]
    by_cases hsame : s.follow.file.length = s.follow.offset
    · rw [if_pos hsame, hnone (by omega), hsame]
      exact ⟨[], by rw [List.append_nil], rfl⟩
    · obtain ⟨hold, hstart, hend⟩ := hgrown (by omega)
      obtain ⟨-, hrest⟩ := lines_append newline hstart (s.follow.file.drop s.follow.offset)
      rw [List.take_append_drop, hend] at hrest
      rw [if_neg hsame]
      refine ⟨_, rfl, ?_⟩
      rw [writes_complete hrest.symm, finished_drop newline hstart, h.told hold, ← hdue]

theorem Kept.poll (h : Kept tools out file tail s) (hok : Orderly s .poll) :
    Kept tools out file tail (step tools out s .poll) := by
  obtain ⟨writes, hpoll, hwrites⟩ := h.poll_writes hok
  have hstep : step tools out s .poll
      = ⟨⟨s.follow.file, s.follow.file.length, s.follow.stdout, s.follow.inFlight ++ writes⟩,
          s.reading.tell, false⟩ := by
    rw [step, hpoll]
  rw [hstep]
  refine ⟨h.content, h.printed_tell hwrites, fun _ => Nat.le_refl _, fun _ => ?_⟩
  show (finished newline (s.follow.file.take s.follow.file.length)).length = _
  rw [List.take_length, h.content]
  rfl

/-- **EVERY STEP** of an orderly run keeps the invariant. -/
theorem Kept.step (h : Kept tools out file tail s) {a : FileAction} (hok : Orderly s a) :
    Kept tools out file tail (step tools out s a) := by
  cases a with
  | append bytes => exact h.append bytes
  | truncate n => exact h.truncate n
  | poll => exact h.poll hok
  | arrive i =>
      obtain rfl : i = 0 := hok
      exact h.arrive

end Invariant

variable (tools out) in
/-- **FOLLOWING PRINTS EVERY LINE ONCE.**  From a file that is UTF-8, in every run of
    appends, truncations, polls and arrivals whose polls are orderly and whose writes arrive
    in their order, standard output has at every moment the requested tail and then each line
    that was finished since and polled, once, whole and in order, up to what is on its way. -/
theorem prints_once_along {file : List UInt8} (hutf8 : isUtf8 file = true) (tail : Option Nat)
    (actions : List FileAction)
    (hok : Along (step tools out) Orderly (started tools out file tail) actions) :
    Printed tools out file tail (started tools out file tail)
      ∧ Along (step tools out) (PrintsOnce tools out file tail) (started tools out file tail)
        actions :=
  ⟨(kept_started hutf8 tail).shows,
    along_of_guarded (step tools out) (fun _ _ h hok => h.step hok)
      (fun _ _ h hok => (h.step hok).shows) actions _ (kept_started hutf8 tail) hok⟩

/-! ## The log of `web` -/

/-- `devstack logs web --follow`, printed as text. -/
def webOutput : Output := ⟨"web", .text, false, fun line => line.message⟩

/-- The last of two lines is printed; another comes in two parts, one more after the file was
    emptied, and the writes of both arrive. -/
def followWeb : List FileAction :=
  [.append [0x63], .append [0x0A], .poll, .arrive 0, .truncate 0, .poll, .append [0x64, 0x0A],
    .poll, .arrive 0, .arrive 0, .arrive 0]

theorem prints_once_web :
    Printed plainLines webOutput [0x61, 0x0A, 0x62, 0x0A] (some 1)
        (started plainLines webOutput [0x61, 0x0A, 0x62, 0x0A] (some 1))
      ∧ Along (step plainLines webOutput)
        (PrintsOnce plainLines webOutput [0x61, 0x0A, 0x62, 0x0A] (some 1))
        (started plainLines webOutput [0x61, 0x0A, 0x62, 0x0A] (some 1)) followWeb :=
  prints_once_along plainLines webOutput (by decide +kernel) (some 1) followWeb (by decide +kernel)

/-- The line `bc` is polled after its first character: `b` is printed as a line.  And where the
    lines `b` and `c` are polled together, `c` may arrive before the end of `b`. -/
theorem fragments_printed :
    ¬ Along (step plainLines webOutput) (PrintsOnce plainLines webOutput [0x61, 0x0A] none)
        (started plainLines webOutput [0x61, 0x0A] none)
        [.append [0x62], .poll, .arrive 0, .arrive 0, .append [0x63, 0x0A], .poll]
      ∧ ¬ Along (step plainLines webOutput) (PrintsOnce plainLines webOutput [0x61, 0x0A] none)
        (started plainLines webOutput [0x61, 0x0A] none)
        [.append [0x62, 0x0A, 0x63, 0x0A], .poll, .arrive 0, .arrive 1] := by
  constructor
  · rintro ⟨-, -, -, ⟨-, hprinted⟩, -⟩
    exact absurd (hprinted (by decide +kernel)) (by decide +kernel)
  · rintro ⟨-, -, -, ⟨hbegins, -⟩, -⟩
    exact absurd hbegins (by decide +kernel)

end DevstackFileFollow
