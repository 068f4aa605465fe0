import Devstack.Ingest
import Devstack.LogFmt

/-! # Log pumps — from a process's output to the records of its log

    `pump_lines` of `src/shim.rs` and `spawn_log_pump` of
    `src/services/tasks/executor.rs`: both read a stream line by line, clean each
    line and write one record for it.  The stream is the chunks its reads return,
    and writing to a log succeeds.

    `read_line` gives up on a line that is not UTF-8, and both pumps take its error
    for the end of the stream.  So the route of this file is one loop for both
    (`pumpLoop`), and one induction along the lines of the stream. -/

namespace DevstackLogPump

open DevstackModel DevstackLines DevstackLossyUtf8 DevstackLogFmt DevstackIngest

/-! ## The loop -/

/-- What a call of `read_line` gives. -/
inductive LineRead where
  | line (text : List Char)
  | eof
  | invalid
  deriving DecidableEq

/-- `read_line`: the bytes up to the next line break have to be UTF-8. -/
def readLine (chunks : List (List UInt8)) : LineRead × List (List UInt8) :=
  let read := readUntil newline chunks
  if read.1 = [] then (.eof, read.2)
  else if isUtf8 read.1 = true then (.line (chars (scan read.1)), read.2)
  else (.invalid, read.2)

/-- The records a pump wrote, and what it left of the stream. -/
structure Pumped (β : Type) where
  records : List β
  unread : List (List UInt8)

section Loop

variable {β : Type} (record : Nat → List Char → β)

/-- The loop of a pump; `record` writes the line with this number.  An error of
    `read_line` ends it as the end of the stream does: `unwrap_or(0)` makes it one in
    `pump_lines`, and `spawn_log_pump` breaks on it. -/
def pumpLoop : Nat → Nat → List (List UInt8) → Pumped β
  | 0, _, chunks => ⟨[], chunks⟩
  | fuel + 1, i, chunks =>
      match readLine chunks with
      | (.line text, chunks) =>
          let pumped := pumpLoop fuel (i + 1) chunks
          ⟨record i text :: pumped.records, pumped.unread⟩
      | (.eof, chunks) => ⟨[], chunks⟩
      | (.invalid, chunks) => ⟨[], chunks⟩

/-- Every turn reads a byte, so their number is fuel enough. -/
def pump (chunks : List (List UInt8)) : Pumped β :=
  pumpLoop record chunks.flatten.length 0 chunks

end Loop

-- ── shim.rs ───────────────────────────────────────────────────────────────────

/-- `pump_lines`; `clock` tells the time at which a line is written. -/
def pumpLines (json : SerdeJson) (label : String) (clock : Nat → String) :
    List (List UInt8) → Pumped String :=
  pump (fun i line =>
    encodeLogLine json label (String.ofList (stripAnsiIfNeeded line)) (clock i))

-- ── services/tasks/executor.rs ────────────────────────────────────────────────

/-- What `spawn_log_pump` writes for one line: the task's log, the service's log if
    there is one, and the text that may become the last line of stderr. -/
structure TaskEntry where
  taskLine : String
  serviceLine : Option String
  clean : String
  deriving DecidableEq

def taskEntry (json : SerdeJson) (isStderr : Bool) (serviceStream : Option String)
    (clock : Nat → String) (i : Nat) (clean : String) : TaskEntry where
  taskLine :=
    let label := if isStderr then "stderr" else "stdout"
    s!"[{clock i}] [{label}] {clean}"
  serviceLine := serviceStream.map (fun stream => encodeLogLine json stream clean (clock i))
  clean := clean

/-- `spawn_log_pump`. -/
def spawnLogPump (json : SerdeJson) (isStderr : Bool) (serviceStream : Option String)
    (clock : Nat → String) : List (List UInt8) → Pumped TaskEntry :=
  pump (fun i line => taskEntry json isStderr serviceStream clock i
    (String.ofList (stripAnsiIfNeeded (trimLineEnd line))))

/-! ## What the loop writes -/

/-- The text of a line, decoded with replacement characters. -/
def lineText (line : List UInt8) : List Char := trimLineEnd (chars (scan line))

/-- The text of a line without escape sequences. -/
def cleanText (line : List UInt8) : String :=
  String.ofList (stripAnsiIfNeeded (lineText line))

/-- The stream was read to its end, and there is one record for each of its lines. -/
def Lossless {β : Type} (record : Nat → String → β) (stream : List UInt8) (pumped : Pumped β) :
    Prop :=
  pumped.unread.flatten = []
    ∧ pumped.records
        = (splitInclusive newline stream).mapIdx (fun i line => record i (cleanText line))

section Loop

variable {β : Type} {record : Nat → List Char → β}

theorem readLine_of_read {chunks : List (List UInt8)} {line : List UInt8}
    (h : (readUntil newline chunks).1 = line) (hne : line ≠ []) :
    readLine chunks
      = (if isUtf8 line = true then .line (chars (scan line)) else .invalid,
          (readUntil newline chunks).2) := by
  rw [readLine]
  simp only [h]
  rw [if_neg hne]
  split <;> rfl

variable (record) in
/-- At the end of the stream nothing more is written. -/
theorem pumpLoop_end {chunks : List (List UInt8)} (h : chunks.flatten = []) (fuel i : Nat) :
    (pumpLoop record fuel i chunks).records = []
      ∧ (pumpLoop record fuel i chunks).unread.flatten = [] := by
  cases fuel with
  | zero => exact ⟨rfl, h⟩
  | succ fuel =>
      have hmem : newline ∉ chunks.flatten := by simp [h]
      obtain ⟨hread, hleft⟩ := readUntil_of_not_mem newline hmem
      have heof : readLine chunks = (.eof, (readUntil newline chunks).2) := by
        rw [readLine]
        simp only [hread, h, if_true]
      rw [pumpLoop, heof]
      exact ⟨rfl, hleft⟩

/-- One line: it is written if it is UTF-8, and ends the loop if it is not. -/
theorem pumpLoop_line {chunks : List (List UInt8)} {line : List UInt8}
    (h : (readUntil newline chunks).1 = line) (hne : line ≠ []) (fuel i : Nat) :
    pumpLoop record (fuel + 1) i chunks
      = if isUtf8 line = true then
          ⟨record i (chars (scan line))
              :: (pumpLoop record fuel (i + 1) (readUntil newline chunks).2).records,
            (pumpLoop record fuel (i + 1) (readUntil newline chunks).2).unread⟩
        else ⟨[], (readUntil newline chunks).2⟩ := by
  rw [pumpLoop, readLine_of_read h hne]
  split
  · next heq =>
      obtain ⟨hread, rfl⟩ := Prod.mk.inj heq
      split at hread
      · next hvalid =>
          rw [if_pos hvalid, LineRead.line.inj hread]
      · exact nomatch hread
  · next heq =>
      have hread := (Prod.mk.inj heq).1
      split at hread <;> exact nomatch hread
  · next heq =>
      obtain ⟨hread, rfl⟩ := Prod.mk.inj heq
      split at hread
      · exact nomatch hread
      · next hinvalid => rw [if_neg hinvalid]

variable {expected : Nat → List UInt8 → β}

/-- **THE LOOP**, along the lines: of a stream that is UTF-8 every line is written, of
    any other a line is missing. -/
theorem pumpLoop_spec
    (hexpected : ∀ i line, isUtf8 line = true → record i (chars (scan line)) = expected i line)
    (stream : List UInt8) : ∀ (chunks : List (List UInt8)) (fuel i : Nat),
    chunks.flatten = stream → stream.length ≤ fuel →
    (isUtf8 stream = true →
      (pumpLoop record fuel i chunks).unread.flatten = []
        ∧ (pumpLoop record fuel i chunks).records
            = (splitInclusive newline stream).mapIdx (fun k line => expected (i + k) line))
      ∧ (isUtf8 stream = false →
          (pumpLoop record fuel i chunks).records.length
            < (splitInclusive newline stream).length) := by
  induction stream using lines_induction newline with
  | hrest stream hmem =>
      intro chunks fuel i hflat hfuel
      by_cases hnil : stream = []
      · subst hnil
        obtain ⟨hrecords, hunread⟩ := pumpLoop_end record hflat fuel i
        refine ⟨fun _ => ⟨hunread, hrecords⟩, fun hinvalid => ?_⟩
        exact absurd hinvalid (by decide)
      · obtain ⟨hread, hleft⟩ := readUntil_of_not_mem newline (hflat ▸ hmem)
        rw [hflat] at hread
        obtain ⟨fuel, rfl⟩ : ∃ f, fuel = f + 1 := by
          have := List.length_pos_iff.mpr hnil
          exact ⟨fuel - 1, by omega⟩
        rw [pumpLoop_line hread hnil, splitInclusive_of_not_mem newline hmem, if_neg hnil]
        obtain ⟨hrecords, hunread⟩ := pumpLoop_end record hleft fuel (i + 1)
        constructor
        · intro hvalid
          rw [if_pos hvalid]
          refine ⟨hunread, ?_⟩
          simp only [hrecords, hexpected i stream hvalid]
          rfl
        · intro hinvalid
          rw [if_neg (by rw [hinvalid]; exact Bool.false_ne_true)]
          exact Nat.one_pos
  | hline as bs hmem ih =>
      intro chunks fuel i hflat hfuel
      obtain ⟨hread, hleft⟩ := readUntil_line newline hmem hflat
      rw [List.length_append, List.length_cons] at hfuel
      obtain ⟨fuel, rfl⟩ : ∃ f, fuel = f + 1 := ⟨fuel - 1, by omega⟩
      have hne : as ++ [newline] ≠ [] := by simp
      have hutf8 : isUtf8 (as ++ newline :: bs) = (isUtf8 (as ++ [newline]) && isUtf8 bs) := by
        rw [isUtf8_append_ascii as bs (by decide), isUtf8_append_ascii as [] (by decide)]
        simp [isUtf8]
      obtain ⟨hgood, hbad⟩ := ih _ fuel (i + 1) hleft (by omega)
      rw [pumpLoop_line hread hne, splitInclusive_append_cons newline hmem, hutf8]
      by_cases hline : isUtf8 (as ++ [newline]) = true
      · rw [if_pos hline, hline, Bool.true_and]
        constructor
        · intro hvalid
          obtain ⟨hunread, hrecords⟩ := hgood hvalid
          refine ⟨hunread, ?_⟩
          simp only [List.mapIdx_cons, hexpected i _ hline, hrecords, Nat.add_zero]
          refine congrArg _ (congrArg (fun f => List.mapIdx f _) ?_)
          funext k line
          rw [Nat.add_right_comm]
          rfl
        · intro hinvalid
          exact Nat.succ_lt_succ (hbad hinvalid)
      · rw [if_neg hline, Bool.eq_false_iff.mpr hline, Bool.false_and]
        refine ⟨fun h => absurd h Bool.false_ne_true, fun _ => ?_⟩
        exact Nat.succ_pos _

/-- A pump loses nothing exactly of a stream that is UTF-8. -/
theorem pump_lossless_iff {expected : Nat → String → β}
    (hexpected : ∀ i line, isUtf8 line = true →
      record i (chars (scan line)) = expected i (cleanText line))
    (chunks : List (List UInt8)) :
    Lossless expected chunks.flatten (pump record chunks) ↔ isUtf8 chunks.flatten = true := by
  obtain ⟨hgood, hbad⟩ := pumpLoop_spec hexpected chunks.flatten chunks _ 0 rfl (Nat.le_refl _)
  constructor
  · intro hlossless
    by_contra hinvalid
    have hlt := hbad (Bool.eq_false_iff.mpr hinvalid)
    have hlength := congrArg List.length hlossless.2
    rw [List.length_mapIdx] at hlength
    exact absurd hlength (Nat.ne_of_lt hlt)
  · intro hvalid
    obtain ⟨hunread, hrecords⟩ := hgood hvalid
    refine ⟨hunread, hrecords.trans ?_⟩
    simp only [Nat.zero_add]

end Loop

/-! ## The two pumps -/

/-- What the encoder makes of a text depends on it up to its line ends. -/
theorem encodeLogLine_congr (json : SerdeJson) (stream timestamp : String) {cs cs' : List Char}
    (h : trimLineEnd cs = trimLineEnd cs') :
    encodeLogLine json stream (String.ofList cs) timestamp
      = encodeLogLine json stream (String.ofList cs') timestamp := by
  simp only [encodeLogLine, String.toList_ofList, h]

/-- The message of a record is the text, unless the text is an object itself: then the
    record has the object's fields. -/
theorem encodeLogLine_message {json : SerdeJson} {stream timestamp : String} {cs : List Char}
    {line : String}
    (hplain : json.parseObject (String.ofList (trimLineEnd cs)) = none
      ∨ startsWithBrace (trimLineEnd cs) = false)
    (hprint : json.printObject ((((∅ : BTreeMap json.Value).insert "msg"
        (json.string (String.ofList (trimLineEnd cs)))).insert "time"
          (json.string timestamp)).insert "stream" (json.string stream)) = .ok line) :
    encodeLogLine json stream (String.ofList cs) timestamp = line := by
  simp only [encodeLogLine, String.toList_ofList]
  rcases hplain with hnone | hbrace
  · simp only [hnone, hprint]
  · cases hparse : json.parseObject (String.ofList (trimLineEnd cs)) with
    | none => simp only [hprint]
    | some map => simp only [hbrace, Bool.false_eq_true, if_false, hprint]

/-- Whether the line ends are cut off first makes no difference. -/
theorem trimLineEnd_strip (cs : List Char) :
    trimLineEnd (stripAnsiIfNeeded cs) = trimLineEnd (stripAnsiIfNeeded (trimLineEnd cs)) := by
  have hends : ∀ c ∈ cs.rtakeWhile isLineEnd, isLineEnd c = true := by
    intro c hc
    exact List.mem_rtakeWhile_imp hc
  have hsplit : trimLineEnd cs ++ cs.rtakeWhile isLineEnd = cs :=
    List.rdropWhile_append_rtakeWhile
  have hcut := trimLineEnd_strip_append hends (trimLineEnd cs)
  rw [hsplit] at hcut
  exact hcut

/-- **WHEN THE PUMPS LOSE NOTHING.**  However its reads cut the stream, each pump reads
    it to its end and writes one record for each of its lines exactly if the stream is
    UTF-8. -/
theorem log_pumps_lossless_iff (json : SerdeJson) (clock : Nat → String)
    (chunks : List (List UInt8)) :
    (∀ label, Lossless (fun i text => encodeLogLine json label text (clock i)) chunks.flatten
        (pumpLines json label clock chunks)
      ↔ isUtf8 chunks.flatten = true)
    ∧ ∀ isStderr serviceStream,
        Lossless (taskEntry json isStderr serviceStream clock) chunks.flatten
            (spawnLogPump json isStderr serviceStream clock chunks)
          ↔ isUtf8 chunks.flatten = true := by
  constructor
  · intro label
    refine pump_lossless_iff (fun i line _ => ?_) chunks
    exact encodeLogLine_congr json label (clock i) (trimLineEnd_strip _)
  · intro isStderr serviceStream
    exact pump_lossless_iff (fun i line _ => rfl) chunks

/-- A printer for texts that need no escapes; no text is read as an object. -/
def plainJson : SerdeJson where
  Value := String
  string := id
  parseObject := fun _ => none
  printObject := fun map => .ok ("\x7b" ++ ",".intercalate
    (map.toList.map (fun entry => "\"" ++ entry.1 ++ "\":\"" ++ entry.2 ++ "\"")) ++ "\x7d")

/-- A line in Latin-1 ("caf" and the byte 0xE9) ends the pump: neither it nor the line
    "ok" after it is written, and "ok" is not even read. -/
theorem latin1_ends_pump :
    (pumpLines plainJson "stdout" (fun _ => "t")
        [[0x63, 0x61, 0x66, 0xE9, 0x0A, 0x6F, 0x6B, 0x0A]]).records = []
      ∧ (pumpLines plainJson "stdout" (fun _ => "t")
          [[0x63, 0x61, 0x66, 0xE9, 0x0A, 0x6F, 0x6B, 0x0A]]).unread = [[0x6F, 0x6B, 0x0A]]
      ∧ ¬ Lossless (fun _ text => encodeLogLine plainJson "stdout" text "t")
          [0x63, 0x61, 0x66, 0xE9, 0x0A, 0x6F, 0x6B, 0x0A]
          (pumpLines plainJson "stdout" (fun _ => "t")
            [[0x63, 0x61, 0x66, 0xE9, 0x0A, 0x6F, 0x6B, 0x0A]])
      ∧ (spawnLogPump plainJson true none (fun _ => "t")
          [[0x63, 0x61, 0x66, 0xE9, 0x0A, 0x6F, 0x6B, 0x0A]]).records = [] := by
  refine ⟨by decide, by decide, ?_, by decide⟩
  rintro ⟨hunread, -⟩
  exact absurd hunread (by decide)

end DevstackLogPump
