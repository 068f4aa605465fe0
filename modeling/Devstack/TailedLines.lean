import Devstack.LiveTail
import Devstack.Lib.LineReader

/-! # Whole lines — what a live tail sends of a log that is cut off and written again

    `tail_run_logs_in_dir` of `src/daemon/log_tailing.rs` keeps one offset for each log.
    It starts where the log ends when the tail is attached, moves to the end of the last
    complete line at every read, and goes back to the start when the log has become
    shorter.  `Reading` says which lines are to be sent.

    * `readNewLogEvents_eq`: a read sends the lines that are finished behind the offset;
    * `Kept`: the lines in front of the offset are those that need no sending, but for
      lines without text;
    * `whole_lines_along`: so the tail sends every line once, whole and in order, as long
      as the offset does not stand inside a line that is finished meanwhile, and no line
      with text is left in front of the offset when it goes back to the start. -/

namespace DevstackTailedLines

open DevstackModel DevstackMachine DevstackLines DevstackLineReader DevstackLossyUtf8
open DevstackLogFmt DevstackIngest DevstackIngestExact DevstackLogLine DevstackLiveTail
open DevstackPrepare (fileStem)

variable (tools : LineTools) (runId path : String)

-- ── log_tailing.rs ────────────────────────────────────────────────────────────

/-- The kinds of event of the file watcher. -/
inductive EventKind where
  | any
  | access
  | create
  | modify
  | remove
  | other
  deriving DecidableEq, Repr

def isTailedLogPath (path : String) : Bool :=
  let name := path.toList.rtakeWhile (· ≠ '/')
  let before := (name.rdropWhile (· ≠ '.')).dropLast
  decide (before ≠ []) && decide (name.rtakeWhile (· ≠ '.') = "log".toList)

/-- A log, the cursor the tail of its run has for it, and the events sent. -/
structure TailedLog where
  file : Option (List UInt8)
  cursor : Option Nat
  events : List (DaemonLogEvent tools)

/-- `initial_log_tail_cursors`. -/
def initialLogTailCursors (file : Option (List UInt8)) : TailedLog tools :=
  ⟨file, if isTailedLogPath path then file.map List.length else none, []⟩

/-- The events on which the tail reads. -/
def EventKind.reads : EventKind → Bool
  | .any | .create | .modify => true
  | _ => false

variable {tools} in
/-- One turn of the loop of `tail_run_logs_in_dir`, for an event of this log. -/
def onEvent (t : TailedLog tools) (kind : EventKind) : TailedLog tools :=
  if kind.reads then
    if !isTailedLogPath path then t
    else
      match t.file with
      | none => { t with cursor := none }
      | some bytes =>
          let read := readNewLogEvents tools runId path bytes (t.cursor.getD 0)
          { t with cursor := some read.2, events := t.events ++ read.1 }
  else if kind = .remove then { t with cursor := none }
  else t

/-! ## A log that changes -/

/-- The log and its tail, the lines that are to be sent, and whether the log was cut off
    in front of the offset since the tail last looked. -/
structure Watched where
  log : TailedLog tools
  reading : Reading newline
  cut : Bool

inductive LogAction where
  | append (bytes : List UInt8)
  | truncate (length : Nat)
  | remove
  | event (kind : EventKind)

/-- A tail that is attached to a log. -/
def attached (file : Option (List UInt8)) : Watched tools :=
  ⟨initialLogTailCursors tools path file, .start (file.getD []), false⟩

variable {tools}

namespace Watched

def offset (s : Watched tools) : Nat := s.log.cursor.getD 0

def content (s : Watched tools) : List UInt8 := s.reading.content

end Watched

def step (s : Watched tools) : LogAction → Watched tools
  | .append bytes =>
      ⟨{ s.log with file := some (s.log.file.getD [] ++ bytes) }, s.reading.append bytes, s.cut⟩
  | .truncate n =>
      ⟨{ s.log with file := s.log.file.map (·.take n) }, s.reading.cut n,
        s.cut || decide ((s.content.take n).length < s.offset)⟩
  | .remove =>
      ⟨{ s.log with file := none }, s.reading.cut 0, s.cut || decide (0 < s.offset)⟩
  | .event kind =>
      ⟨onEvent runId path s.log kind, if kind.reads then s.reading.tell else s.reading,
        s.cut && !kind.reads && decide (kind ≠ .remove)⟩

/-! ## Whole lines -/

/-- The text of a line, without its line end. -/
def lineText (line : List UInt8) : List Char := chars (scan (line.rdropWhile isLineEndByte))

def nonEmpty (line : List UInt8) : Bool := decide (line.rdropWhile isLineEndByte ≠ [])

/-- Nothing is left of the line without its escape sequences. -/
def Blank (line : List UInt8) : Prop := stripAnsiIfNeeded (lineText line) = []

instance (line : List UInt8) : Decidable (Blank line) :=
  inferInstanceAs (Decidable (stripAnsiIfNeeded (lineText line) = []))

variable (tools) in
/-- The event of a line. -/
def eventOf (line : List UInt8) : Option (DaemonLogEvent tools) :=
  lineEvent tools runId (fileStem path) (lineText line)

/-- The events sent are those of the lines told, one for each line that is not empty. -/
def Sent (s : Watched tools) : Prop :=
  s.log.events.map some = (s.reading.lines.filter nonEmpty).map (eventOf tools runId path)

/-- After the step every line that was due is sent, once, whole and in order. -/
def WholeLines (s : Watched tools) (a : LogAction) : Prop := Sent runId path (step runId path s a)

/-- A truncation is noticed while the log is shorter than the offset. -/
def Noticed (s : Watched tools) : LogAction → Prop
  | .event kind => kind.reads = true → s.cut = true → s.content.length < s.offset
  | _ => True

/-- The offset does not stand inside a line that is finished by now. -/
def AtLine (s : Watched tools) : Prop :=
  rest newline (s.content.take s.offset) = [] ∨ newline ∉ s.content.drop s.offset

/-- What is needed of a step: no line with text is kept in front of an offset that goes
    back to the start, and a read starts at a line and finds text in every line. -/
def Orderly (s : Watched tools) : LogAction → Prop
  | .append _ | .remove => True
  | .truncate n =>
      s.cut = true ∨ s.offset ≤ n ∨ ∀ line ∈ finished newline (s.content.take n), Blank line
  | .event kind =>
      (kind = .remove → s.cut = true
        ∨ ∀ line ∈ finished newline (s.content.take s.offset), Blank line)
      ∧ (kind.reads = true → (s.cut = false → AtLine s)
        ∧ ∀ line ∈ s.reading.due, nonEmpty line = true → ¬ Blank line)

instance : ∀ (s : Watched tools) (a : LogAction), Decidable (Noticed s a)
  | _, .append _ | _, .truncate _ | _, .remove => .isTrue trivial
  | s, .event kind =>
      inferInstanceAs (Decidable (kind.reads = true → s.cut = true → s.content.length < s.offset))

instance (s : Watched tools) : Decidable (AtLine s) :=
  inferInstanceAs (Decidable (_ ∨ _))

instance : ∀ (s : Watched tools) (a : LogAction), Decidable (Orderly s a)
  | _, .append _ | _, .remove => .isTrue trivial
  | _, .truncate _ => inferInstanceAs (Decidable (_ ∨ _ ∨ _))
  | _, .event _ => inferInstanceAs (Decidable (_ ∧ _))

/-! ## One read -/

section Read

variable {runId path}

/-- There is an event for a line unless it is blank. -/
theorem eventOf_eq_none {line : List UInt8} : eventOf tools runId path line = none ↔ Blank line := by
  rw [eventOf, lineEvent, Blank]
  split
  · next h => exact ⟨fun _ => h, fun _ => rfl⟩
  · next h => exact ⟨fun hnone => (by cases hnone), fun hnil => absurd hnil h⟩

theorem blank_of_empty {line : List UInt8} (h : nonEmpty line = false) : Blank line := by
  have hnil : line.rdropWhile isLineEndByte = [] := by simpa [nonEmpty] using h
  rw [Blank, lineText, hnil]
  exact stripAnsiIfNeeded_plain List.not_mem_nil

/-- The events of the texts of a file are those of its finished lines. -/
theorem textLines_events (file : List UInt8) :
    (textLines file).filterMap (lineEvent tools runId (fileStem path))
      = (finished newline file).filterMap (eventOf tools runId path) := by
  rw [textLines]
  induction finished newline file with
  | nil => rfl
  | cons line lines ih =>
      by_cases hempty : nonEmpty line = true
      · have hne : line.rdropWhile isLineEndByte ≠ [] := of_decide_eq_true hempty
        rw [List.map_cons, List.filter_cons_of_pos (by simpa using hne), List.map_cons,
          List.filterMap_cons, List.filterMap_cons, ih]
        rfl
      · have hnil : line.rdropWhile isLineEndByte = [] := by simpa [nonEmpty] using hempty
        have hnone : eventOf tools runId path line = none :=
          eventOf_eq_none.mpr (blank_of_empty (Bool.eq_false_iff.mpr hempty))
        rw [List.map_cons, List.filter_cons_of_neg (by simpa using hnil),
          List.filterMap_cons_none hnone, ih]

/-- **ONE READ** sends the lines that are finished behind the offset, and moves the offset
    to the end of the last of them. -/
theorem readNewLogEvents_eq (file : List UInt8) (offset : Nat) :
    let start := if file.length < offset then 0 else offset
    readNewLogEvents tools runId path file offset
      = ((finished newline (file.drop start)).filterMap (eventOf tools runId path),
          start + (completePart newline (file.drop start)).length) := by
  intro start
  rw [readNewLogEvents]
  show (if completePart newline (file.drop start) = [] then _ else _) = _
  by_cases hnone : completePart newline (file.drop start) = []
  · rw [if_pos hnone, hnone, finished_of_not_mem newline ((completePart_eq_nil newline).mp hnone)]
    rfl
  · rw [if_neg hnone]
    dsimp only
    rw [complete_events (rest_completePart newline _), textLines_completePart, textLines_events]

/-- Lines that are not blank have one event each. -/
theorem filterMap_events {lines : List (List UInt8)}
    (h : ∀ line ∈ lines, nonEmpty line = true → ¬ Blank line) :
    (lines.filterMap (eventOf tools runId path)).map some
      = (lines.filter nonEmpty).map (eventOf tools runId path) := by
  induction lines with
  | nil => rfl
  | cons line lines ih =>
      have ih := ih fun l hl => h l (List.mem_cons_of_mem line hl)
      by_cases hempty : nonEmpty line = true
      · obtain ⟨event, hevent⟩ := Option.ne_none_iff_exists'.mp
          (fun hnone => h line List.mem_cons_self hempty (eventOf_eq_none.mp hnone))
        rw [List.filterMap_cons_some hevent, List.map_cons, ih, List.filter_cons_of_pos hempty,
          List.map_cons, hevent]
      · have hnone : eventOf tools runId path line = none :=
          eventOf_eq_none.mpr (blank_of_empty (Bool.eq_false_iff.mpr hempty))
        rw [List.filterMap_cons_none hnone, ih, List.filter_cons_of_neg hempty]

theorem filterMap_blank {lines : List (List UInt8)} (h : ∀ line ∈ lines, Blank line) :
    lines.filterMap (eventOf tools runId path) = [] :=
  List.filterMap_eq_nil_iff.mpr fun line hline => eventOf_eq_none.mpr (h line hline)

end Read

/-! ## The offset and the lines told -/

section Invariant

variable {runId path} {s : Watched tools}

variable (runId path) in
/-- The lines in front of the offset are told; lines told behind it are blank.  After a cut
    the log is read again from the start, where all lines told are blank. -/
structure Kept (s : Watched tools) : Prop where
  file : s.log.file.getD [] = s.content
  sent : Sent runId path s
  cut : s.cut = true → ∀ line ∈ (finished newline s.content).take s.reading.told, Blank line
  offset_le : s.cut = false → s.offset ≤ s.content.length
  told : s.cut = false → (finished newline (s.content.take s.offset)).length ≤ s.reading.told
  behind : s.cut = false → ∀ line ∈ ((finished newline s.content).take s.reading.told).drop
    (finished newline (s.content.take s.offset)).length, Blank line

theorem kept_attached (hlog : isTailedLogPath path = true) (file : Option (List UInt8)) :
    Kept runId path (attached tools path file) := by
  have hoffset : (attached tools path file).offset = (file.getD []).length := by
    show (if isTailedLogPath path = true then file.map List.length else none).getD 0 = _
    rw [if_pos hlog]
    cases file <;> rfl
  have hcontent : (attached tools path file).content = file.getD [] := rfl
  refine ⟨rfl, rfl, fun h => (nomatch h), fun _ => ?_, fun _ => ?_, fun _ => ?_⟩
  · rw [hoffset, hcontent]
  · rw [hoffset, hcontent, List.take_length]
    exact Nat.le_refl _
  · rw [hoffset, hcontent, List.take_length]
    intro line hline
    have hnil : line ∈ ([] : List (List UInt8)) := List.drop_take_self ▸ hline
    exact nomatch hnil

theorem Kept.append (h : Kept runId path s) (bytes : List UInt8) :
    Kept runId path (step runId path s (.append bytes)) := by
  have hlines := s.reading.append_told_lines bytes
  have htake : s.cut = false → (s.content ++ bytes).take s.offset = s.content.take s.offset :=
    fun hcut => List.take_append_of_le_length (h.offset_le hcut)
  refine ⟨?_, h.sent, fun hcut => ?_, fun hcut => ?_, fun hcut => ?_, fun hcut => ?_⟩
  · show (some (s.log.file.getD [] ++ bytes)).getD [] = s.content ++ bytes
    rw [h.file]
    rfl
  · show ∀ line ∈ (finished newline (s.reading.append bytes).content).take
      (s.reading.append bytes).told, Blank line
    rw [hlines]
    exact h.cut hcut
  · show s.offset ≤ (s.content ++ bytes).length
    rw [List.length_append]
    exact Nat.le_trans (h.offset_le hcut) (Nat.le_add_right _ _)
  · show (finished newline ((s.content ++ bytes).take s.offset)).length ≤ _
    rw [htake hcut]
    exact h.told hcut
  · show ∀ line ∈ ((finished newline (s.reading.append bytes).content).take
      (s.reading.append bytes).told).drop
        (finished newline ((s.content ++ bytes).take s.offset)).length, Blank line
    rw [hlines, htake hcut]
    exact h.behind hcut

theorem Kept.truncate (h : Kept runId path s) {n : Nat} (hok : Orderly s (.truncate n)) :
    Kept runId path (step runId path s (.truncate n)) := by
  have hbegins := s.reading.cut_told_prefix n
  have hlength : (s.content.take n).length = min n s.content.length := List.length_take
  -- a log that is still as long as the offset has lost nothing in front of it
  have hstill : ¬ (s.content.take n).length < s.offset →
      (s.content.take n).take s.offset = s.content.take s.offset := by
    intro hlong
    rw [List.take_take, Nat.min_eq_left (by omega)]
  refine ⟨?_, h.sent, fun hcut => ?_, fun hcut => ?_, fun hcut => ?_, fun hcut => ?_⟩
  · show (s.log.file.map (·.take n)).getD [] = s.content.take n
    rw [← h.file]
    cases s.log.file with
    | none => exact List.take_nil.symm
    | some bytes => rfl
  · show ∀ line ∈ (finished newline (s.reading.cut n).content).take _, Blank line
    cases hold : s.cut with
    | true => exact fun line hline => h.cut hold line (hbegins.subset hline)
    | false =>
        have hshort : (s.content.take n).length < s.offset := by
          have hcut : (s.cut || decide ((s.content.take n).length < s.offset)) = true := hcut
          rw [hold, Bool.false_or] at hcut
          exact of_decide_eq_true hcut
        have hle := h.offset_le hold
        rcases hok with hcut' | hn | hblank
        · exact absurd (hold.symm.trans hcut') Bool.false_ne_true
        · omega
        · exact fun line hline => hblank line (List.mem_of_mem_take hline)
  all_goals
    obtain ⟨hold, hlong⟩ := Bool.or_eq_false_iff.mp
      (show (s.cut || decide ((s.content.take n).length < s.offset)) = false from hcut)
    have hlong := of_decide_eq_false hlong
  · exact Nat.le_of_not_lt hlong
  · show (finished newline ((s.content.take n).take s.offset)).length
      ≤ min s.reading.told (finished newline (s.content.take n)).length
    refine Nat.le_min.mpr ⟨?_, (prefix_finished newline (List.take_prefix _ _)).length_le⟩
    rw [hstill hlong]
    exact h.told hold
  · show ∀ line ∈ ((finished newline (s.reading.cut n).content).take (s.reading.cut n).told).drop
      (finished newline ((s.content.take n).take s.offset)).length, Blank line
    rw [hstill hlong]
    exact fun line hline => h.behind hold line ((hbegins.drop _).subset hline)

/-- A removed log is a log without content. -/
theorem Kept.remove (h : Kept runId path s) : Kept runId path (step runId path s .remove) := by
  have hlines : ∀ n, (finished newline (s.reading.cut 0).content).take n = [] := fun n => by
    rw [Reading.cut_content, List.take_zero]
    exact List.take_nil
  refine ⟨rfl, h.sent, fun _ => ?_, fun hcut => ?_, fun hcut => ?_, fun _ => ?_⟩
  · show ∀ line ∈ (finished newline (s.reading.cut 0).content).take _, Blank line
    rw [hlines]
    exact fun line hline => nomatch hline
  · obtain ⟨-, hzero⟩ := Bool.or_eq_false_iff.mp
      (show (s.cut || decide (0 < s.offset)) = false from hcut)
    exact Nat.le_trans (Nat.le_of_not_lt (of_decide_eq_false hzero)) (Nat.zero_le _)
  · show (finished newline ((s.content.take 0).take s.offset)).length ≤ _
    rw [List.take_zero, List.take_nil]
    exact Nat.zero_le _
  · show ∀ line ∈ ((finished newline (s.reading.cut 0).content).take _).drop _, Blank line
    rw [hlines, List.drop_nil]
    exact fun line hline => nomatch hline

/-- The lines told are those in front of the offset and blank ones. -/
theorem Kept.told_split (h : Kept runId path s) (hcut : s.cut = false) :
    (finished newline s.content).take s.reading.told
      = finished newline (s.content.take s.offset)
        ++ ((finished newline s.content).take s.reading.told).drop
          (finished newline (s.content.take s.offset)).length := by
  obtain ⟨more, hmore⟩ := prefix_finished newline (List.take_prefix s.offset s.content)
  conv_lhs => rw [← List.take_append_drop (finished newline (s.content.take s.offset)).length
    ((finished newline s.content).take s.reading.told)]
  rw [List.take_take, Nat.min_eq_left (h.told hcut), ← hmore, List.take_left]

/-- **WHAT A READ SENDS** is what is due. -/
theorem Kept.read_due (h : Kept runId path s) (hnoticed : s.cut = true → s.content.length < s.offset)
    (hline : s.cut = false → AtLine s) :
    (readNewLogEvents tools runId path s.content s.offset).1
      = s.reading.due.filterMap (eventOf tools runId path) := by
  rw [readNewLogEvents_eq]
  dsimp only
  have hdue : (finished newline s.content).drop s.reading.told = s.reading.due := rfl
  cases hcut : s.cut with
  | true =>
      rw [if_pos (hnoticed hcut), List.drop_zero,
        ← List.take_append_drop s.reading.told (finished newline s.content), List.filterMap_append,
        filterMap_blank (h.cut hcut), List.nil_append, hdue]
  | false =>
      rw [if_neg (Nat.not_lt.mpr (h.offset_le hcut))]
      rcases hline hcut with hrest | hopen
      · -- the lines told behind the offset are blank
        have htold : (finished newline (s.content.take s.offset)).length
            ≤ ((finished newline s.content).take s.reading.told).length := by
          rw [List.length_take]
          exact Nat.le_min.mpr ⟨h.told hcut, Nat.le_trans (h.told hcut) s.reading.told_le⟩
        rw [finished_drop newline hrest,
          ← List.take_append_drop s.reading.told (finished newline s.content),
          List.drop_append_of_le_length htold,
          List.filterMap_append, filterMap_blank (h.behind hcut), List.nil_append, hdue]
      · -- nothing is finished behind the offset
        have htold := h.told hcut
        rw [finished_take newline hopen] at htold
        rw [finished_of_not_mem newline hopen, ← hdue, List.drop_eq_nil_of_le htold]

variable (tools runId path) in
/-- A read leaves the offset behind the last finished line. -/
theorem read_offset (file : List UInt8) (offset : Nat) :
    let offset' := (readNewLogEvents tools runId path file offset).2
    offset' ≤ file.length ∧ finished newline (file.take offset') = finished newline file := by
  rw [readNewLogEvents_eq]
  dsimp only
  generalize hstart : (if file.length < offset then 0 else offset) = start
  have hle : start ≤ file.length := by
    rw [← hstart]
    split
    · exact Nat.zero_le _
    · next hlong => exact Nat.le_of_not_lt hlong
  have hpart := completePart_append_openPart newline (file.drop start)
  have htake : file.take (start + (completePart newline (file.drop start)).length)
      = file.take start ++ completePart newline (file.drop start) := by
    rw [List.take_add, ← List.prefix_iff_eq_take.mp ⟨_, hpart⟩]
  refine ⟨?_, ?_⟩
  · have hlength := congrArg List.length hpart
    rw [List.length_append, List.length_drop] at hlength
    omega
  · rw [htake, finished_append_completePart, List.take_append_drop]

theorem Kept.event (h : Kept runId path s) (hlog : isTailedLogPath path = true) {kind : EventKind}
    (hnoticed : Noticed s (.event kind)) (hok : Orderly s (.event kind)) :
    Kept runId path (step runId path s (.event kind)) := by
  obtain ⟨hremove, hread⟩ := hok
  by_cases hreads : kind.reads = true
  · obtain ⟨hline, htext⟩ := hread hreads
    have hstep : step runId path s (.event kind)
        = ⟨onEvent runId path s.log kind, s.reading.tell, false⟩ := by
      rw [step, if_pos hreads, hreads, Bool.not_true, Bool.and_false, Bool.false_and]
    have hfile := h.file
    rw [hstep, onEvent, if_pos hreads, hlog]
    simp only [Bool.not_true, Bool.false_eq_true, if_false]
    cases hbytes : s.log.file with
    | none =>
        rw [hbytes] at hfile
        have hnil : finished newline s.content = [] := by rw [← hfile]; rfl
        have hdue : s.reading.due = [] := by
          show (finished newline s.content).drop _ = []
          rw [hnil, List.drop_nil]
        refine ⟨hfile, ?_, fun hcut => (nomatch hcut), fun _ => Nat.zero_le _, fun _ => ?_,
          fun _ => ?_⟩
        · show s.log.events.map some = ((s.reading.lines ++ s.reading.due).filter _).map _
          rw [hdue, List.append_nil]
          exact h.sent
        · exact Nat.zero_le _
        · show ∀ line ∈ ((finished newline s.content).take _).drop _, Blank line
          rw [hnil, List.take_nil, List.drop_nil]
          exact fun line hline => nomatch hline
    | some bytes =>
        obtain rfl : bytes = s.content := by rw [hbytes] at hfile; exact hfile
        obtain ⟨hle, hfinished⟩ := read_offset tools runId path s.content s.offset
        refine ⟨rfl, ?_, fun hcut => (nomatch hcut), fun _ => hle, fun _ => ?_, fun _ => ?_⟩
        · show (s.log.events ++ (readNewLogEvents tools runId path s.content s.offset).1).map some
            = ((s.reading.lines ++ s.reading.due).filter nonEmpty).map (eventOf tools runId path)
          rw [List.map_append, h.sent, h.read_due (hnoticed hreads) hline, filterMap_events htext,
            List.filter_append, List.map_append]
        · exact Nat.le_of_eq (congrArg List.length hfinished)
        · show ∀ line ∈ ((finished newline s.content).take (finished newline s.content).length).drop
            (finished newline (s.content.take
              (readNewLogEvents tools runId path s.content s.offset).2)).length, Blank line
          rw [hfinished, List.drop_take_self]
          exact fun line hline => nomatch hline
  · have hstep : (step runId path s (.event kind)).reading = s.reading := if_neg hreads
    by_cases hgone : kind = .remove
    · subst hgone
      have hlog' : (step runId path s (.event .remove)).log = { s.log with cursor := none } := rfl
      refine ⟨h.file, h.sent, fun hcut => ?_, fun _ => Nat.zero_le _, fun _ => Nat.zero_le _,
        fun _ => ?_⟩
      · have hfalse : (s.cut && true && false) = true := hcut
        rw [Bool.and_false] at hfalse
        exact nomatch hfalse
      · show ∀ line ∈ (finished newline s.content).take s.reading.told, Blank line
        cases hcut : s.cut with
        | true => exact h.cut hcut
        | false =>
            rcases hremove rfl with hcut' | hblank
            · exact absurd (hcut.symm.trans hcut') Bool.false_ne_true
            · rw [h.told_split hcut]
              intro line hline
              rcases List.mem_append.mp hline with hline | hline
              · exact hblank line hline
              · exact h.behind hcut line hline
    · -- the tail does not react
      have hsame : step runId path s (.event kind) = s := by
        have hreads : kind.reads = false := Bool.eq_false_iff.mpr hreads
        rw [step, onEvent, hreads]
        simp [hgone]
      rw [hsame]
      exact h

/-- **EVERY STEP** of an orderly run keeps the invariant. -/
theorem Kept.step (h : Kept runId path s) (hlog : isTailedLogPath path = true) {a : LogAction}
    (hnoticed : Noticed s a) (hok : Orderly s a) : Kept runId path (step runId path s a) := by
  cases a with
  | append bytes => exact h.append bytes
  | truncate n => exact h.truncate hok
  | remove => exact h.remove
  | event kind => exact h.event hlog hnoticed hok

end Invariant

/-- **LIVE TAIL SENDS WHOLE LINES.**  From whatever the log holds when the tail is attached:
    in every run of appends, truncations, removals and file events in which a truncation is
    noticed while the log is shorter than the offset, and whose steps are orderly, the
    events sent are at every moment those of the lines that were finished since, each once,
    whole and in order. -/
theorem whole_lines_along (hlog : isTailedLogPath path = true) (file : Option (List UInt8))
    (actions : List LogAction)
    (hnoticed : Along (step runId path) Noticed (attached tools path file) actions)
    (hok : Along (step runId path) Orderly (attached tools path file) actions) :
    Along (step runId path) (WholeLines runId path) (attached tools path file) actions :=
  along_of_guarded (step runId path) (fun _ _ h hgood => h.step hlog hgood.1 hgood.2)
    (fun _ _ h hgood => (h.step hlog hgood.1 hgood.2).sent) actions _ (kept_attached hlog file)
    (along_and (step runId path) hnoticed hok)

/-! ## The log of `web` -/

/-- A line is half written when the tail is attached and finished after a truncation. -/
theorem whole_lines_web :
    Along (step "r1" webPath) (WholeLines "r1" webPath)
      (attached plainLines webPath (some [0x61, 0x0A, 0x62]))
      [.event .modify, .truncate 0, .event .modify, .append [0x63, 0x0A, 0x64], .event .modify] :=
  whole_lines_along "r1" webPath (by decide +kernel) (some [0x61, 0x0A, 0x62])
    [.event .modify, .truncate 0, .event .modify, .append [0x63, 0x0A, 0x64], .event .modify]
    (by decide +kernel) (by decide +kernel)

/-- `ab` stands at the end of the log when the tail is attached; `c` and a line end follow.
    The event is for `c`, where the line is `abc`. -/
theorem fragment_sent :
    Along (step "r1" webPath) Noticed (attached plainLines webPath (some [0x61, 0x62]))
        [.append [0x63, 0x0A], .event .modify]
      ∧ ¬ Along (step "r1" webPath) (WholeLines "r1" webPath)
        (attached plainLines webPath (some [0x61, 0x62]))
        [.append [0x63, 0x0A], .event .modify] := by
  refine ⟨by decide +kernel, ?_⟩
  rintro ⟨-, hsent, -⟩
  have hraw := congrArg (List.map (Option.map DaemonLogEvent.raw)) hsent
  revert hraw
  decide +kernel

end DevstackTailedLines
