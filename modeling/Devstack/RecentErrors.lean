import Devstack.LiveTail

/-! # Recent errors — the last lines on stderr, read from the end of a log

    `recent_stderr_lines_from_file` of `src/app/queries/status.rs` reads a log backwards in
    chunks, with the front of the earliest line carried along, and looks only at lines that
    contain the bytes `stderr`.

    * `scanChunks_lines`: however the chunks cut the lines, the scan takes the last lines
      that it accepts;
    * `scan_agrees_iff`: so it agrees with the plain reading of a log, for every limit, if
      and only if every line of the log whose stream is `stderr` has these bytes. -/

namespace DevstackRecentErrors

open DevstackLines DevstackLossyUtf8 DevstackLogFmt DevstackIngest DevstackIngestExact
open DevstackLogLine DevstackLiveTail

variable (tools : LineTools)

-- ── status.rs ─────────────────────────────────────────────────────────────────

/-- `STDERR_NEEDLE`. -/
def stderrNeedle : List UInt8 := [0x73, 0x74, 0x64, 0x65, 0x72, 0x72]

structure RecentErrorLine where
  timestamp : Option String
  message : String
  deriving DecidableEq, Repr

def recentErrorFromRaw (rawLine : String) : RecentErrorLine :=
  ⟨extractTimestampStr tools rawLine, (extractLogContent tools rawLine).2⟩

/-- The text of a line, after its line end was trimmed: nothing if it is not on stderr. -/
def errorLine (text : List Char) : Option RecentErrorLine :=
  let raw := stripAnsiIfNeeded text
  if raw = [] then none
  else if (extractLogContent tools (String.ofList raw)).1 ≠ "stderr" then none
  else some (recentErrorFromRaw tools (String.ofList raw))

/-- The bytes of a line, decoded and trimmed. -/
def lineChars (rawLine : List UInt8) : List Char :=
  chars ((scan rawLine).rdropWhile isLineEndPiece)

/-- What `push_recent_stderr_line` finds in a line. -/
def recentStderrLine (rawLine : List UInt8) : Option RecentErrorLine :=
  if stderrNeedle <:+: rawLine then errorLine tools (lineChars rawLine) else none

def pushRecentStderrLine (lines : List RecentErrorLine) (rawLine : List UInt8) (limit : Nat) :
    List RecentErrorLine :=
  if limit ≤ lines.length then lines else lines ++ (recentStderrLine tools rawLine).toList

/-- The loop over the lines of a chunk, from the last: the lines found and what is left of
    the chunk.  The fuel is the length of the chunk. -/
def scanChunk (limit : Nat) :
    Nat → List RecentErrorLine → List UInt8 → List RecentErrorLine × List UInt8
  | 0, lines, chunk => (lines, chunk)
  | fuel + 1, lines, chunk =>
      if newline ∈ chunk then
        let lines := pushRecentStderrLine tools lines (openPart newline chunk) limit
        let before := (completePart newline chunk).dropLast
        if limit ≤ lines.length then (lines, before) else scanChunk limit fuel lines before
      else (lines, chunk)

/-- The loop over the chunks, with the offset in front of which nothing was read; the fuel
    is the length of the file. -/
def scanChunks (chunkSize limit : Nat) (file : List UInt8) :
    Nat → Nat → List UInt8 → List RecentErrorLine → List RecentErrorLine × List UInt8
  | 0, _, trailing, lines => (lines, trailing)
  | fuel + 1, offset, trailing, lines =>
      if offset = 0 ∨ limit ≤ lines.length then (lines, trailing)
      else
        let readLen := min offset chunkSize
        let offset := offset - readLen
        let chunk := (file.drop offset).take readLen ++ trailing
        let scanned := scanChunk tools limit chunk.length lines chunk
        scanChunks chunkSize limit file fuel offset scanned.2 scanned.1

def chunkSize : Nat := 64 * 1024

/-- `recent_stderr_lines_from_file`; there may be no file. -/
def recentStderrLinesFromFile (log : Option (List UInt8)) (limit : Nat) : List RecentErrorLine :=
  match log with
  | none => []
  | some file =>
      if limit = 0 then []
      else
        let (lines, trailing) := scanChunks tools chunkSize limit file file.length file.length [] []
        let lines := if trailing ≠ [] then pushRecentStderrLine tools lines trailing limit else lines
        lines.reverse

/-! ## The plain reading -/

/-- The last items of a list. -/
def lastOf {β : Type} (limit : Nat) (xs : List β) : List β := xs.drop (xs.length - limit)

/-- The whole log is decoded and split into lines; every line is trimmed, stripped and
    parsed. -/
def plainStderrLines (file : List UInt8) (limit : Nat) : List RecentErrorLine :=
  lastOf limit ((splitInclusive (ascii newline) (scan file)).filterMap
    (fun line => errorLine tools (chars (line.rdropWhile isLineEndPiece))))

/-- The lines of a log, the open last one included. -/
def logLines (file : List UInt8) : List (List UInt8) :=
  finished newline file ++ [rest newline file]

/-- A line on stderr does not have the bytes that are looked for. -/
def Hidden (line : List UInt8) : Prop :=
  errorLine tools (lineChars line) ≠ none ∧ ¬ stderrNeedle <:+: line

variable {tools}

/-! ## Lines from the last -/

theorem logLines_of_not_mem {bs : List UInt8} (h : newline ∉ bs) : logLines bs = [bs] := by
  rw [logLines, finished_of_not_mem newline h, rest_of_not_mem newline h]
  rfl

/-- The last line is what stands behind the last line end. -/
theorem logLines_append_line (as : List UInt8) {bs : List UInt8} (h : newline ∉ bs) :
    logLines (as ++ newline :: bs) = logLines as ++ [bs] := by
  rw [logLines, finished_append_cons, rest_append_cons, finished_of_not_mem newline h,
    rest_of_not_mem newline h]
  rfl

/-- A chunk with a line end, cut at its last one. -/
theorem cut_last {chunk : List UInt8} (h : newline ∈ chunk) :
    (completePart newline chunk).dropLast ++ newline :: openPart newline chunk = chunk := by
  have hne : completePart newline chunk ≠ [] :=
    fun hnil => absurd h ((completePart_eq_nil newline).mp hnil)
  have hlast : (completePart newline chunk).getLast hne = newline := by
    have hstop := List.rdropWhile_last_not (fun b => decide (b ≠ newline)) chunk hne
    by_contra hother
    exact hstop (decide_eq_true hother)
  conv_rhs => rw [← completePart_append_openPart newline chunk,
    ← List.dropLast_append_getLast hne, hlast]
  rw [List.append_assoc]
  rfl

theorem filterMap_empty_line : recentStderrLine tools [] = none := rfl

/-- What the scan will find in the part of the log that it has not looked at. -/
def found (tools : LineTools) (front : List UInt8) : List RecentErrorLine :=
  (logLines front).reverse.filterMap (recentStderrLine tools)

theorem found_append_line (as : List UInt8) {bs : List UInt8} (h : newline ∉ bs) :
    found tools (as ++ newline :: bs) = (recentStderrLine tools bs).toList ++ found tools as := by
  rw [found, logLines_append_line as h, List.reverse_append, List.filterMap_append]
  congr 1

/-- A full list takes no more lines. -/
theorem take_of_full {limit : Nat} {lines more : List RecentErrorLine} (hle : lines.length ≤ limit)
    (hfull : limit ≤ lines.length) : (lines ++ more).take limit = lines :=
  List.take_left' (Nat.le_antisymm hle hfull)

variable (tools) in
theorem push_length {limit : Nat} {lines : List RecentErrorLine} (hle : lines.length ≤ limit)
    (line : List UInt8) : (pushRecentStderrLine tools lines line limit).length ≤ limit := by
  rw [pushRecentStderrLine]
  split
  · exact hle
  · next hroom =>
      rw [List.length_append]
      cases recentStderrLine tools line with
      | none => exact hle
      | some _ => exact Nat.lt_of_not_le hroom

variable (tools) in
/-- One line is pushed. -/
theorem push_found {limit : Nat} {lines : List RecentErrorLine} (hroom : ¬ limit ≤ lines.length)
    (as : List UInt8) {bs : List UInt8} (h : newline ∉ bs) :
    pushRecentStderrLine tools lines bs limit ++ found tools as
      = lines ++ found tools (as ++ newline :: bs) := by
  rw [pushRecentStderrLine, if_neg hroom, found_append_line as h, List.append_assoc]

variable (tools) in
/-- **ONE CHUNK**: what is found, in the end, does not change; a chunk is left without a
    line end, or the list is full. -/
theorem scanChunk_found (limit : Nat) (front : List UInt8) (fuel : Nat)
    (lines : List RecentErrorLine) (chunk : List UInt8) (hfuel : chunk.length ≤ fuel)
    (hle : lines.length ≤ limit) (hroom : ¬ limit ≤ lines.length) :
    let scanned := scanChunk tools limit fuel lines chunk
    (scanned.1 ++ found tools (front ++ scanned.2)).take limit
        = (lines ++ found tools (front ++ chunk)).take limit
      ∧ scanned.1.length ≤ limit ∧ (newline ∉ scanned.2 ∨ limit ≤ scanned.1.length) := by
  induction fuel generalizing lines chunk with
  | zero =>
      obtain rfl := List.eq_nil_of_length_eq_zero (Nat.le_zero.mp hfuel)
      exact ⟨rfl, hle, Or.inl List.not_mem_nil⟩
  | succ fuel ih =>
      rw [scanChunk]
      by_cases hmem : newline ∈ chunk
      · rw [if_pos hmem]
        dsimp only
        have hcut := cut_last hmem
        have hopen := not_mem_openPart newline chunk
        generalize (completePart newline chunk).dropLast = before at hcut ⊢
        generalize openPart newline chunk = line at hcut hopen ⊢
        subst hcut
        have hpush := push_found tools hroom (front ++ before) hopen
        rw [List.append_assoc] at hpush
        have hlen := push_length tools hle line
        by_cases hfull : limit ≤ (pushRecentStderrLine tools lines line limit).length
        · rw [if_pos hfull]
          exact ⟨by rw [hpush], hlen, Or.inr hfull⟩
        · rw [if_neg hfull]
          have hshort : before.length ≤ fuel := by
            rw [List.length_append, List.length_cons] at hfuel
            omega
          obtain ⟨hsame, hrest⟩ := ih _ before hshort hlen hfull
          exact ⟨by rw [hsame, hpush], hrest⟩
      · rw [if_neg hmem]
        exact ⟨rfl, hle, Or.inl hmem⟩

variable (tools) in
/-- **THE CHUNKS** do not matter: the scan finds the last lines that it accepts. -/
theorem scanChunks_lines {size : Nat} (hsize : 0 < size) (limit : Nat) (file : List UInt8)
    (fuel offset : Nat) (trailing : List UInt8) (lines : List RecentErrorLine)
    (hfuel : offset ≤ fuel) (hoffset : offset ≤ file.length) (hle : lines.length ≤ limit)
    (hopen : newline ∉ trailing ∨ limit ≤ lines.length) :
    let scanned := scanChunks tools size limit file fuel offset trailing lines
    (if scanned.2 ≠ [] then pushRecentStderrLine tools scanned.1 scanned.2 limit else scanned.1)
      = (lines ++ found tools (file.take offset ++ trailing)).take limit := by
  -- nothing is left to read, or the list is full
  have hend : ∀ (lines : List RecentErrorLine) (trailing : List UInt8), lines.length ≤ limit →
      newline ∉ trailing ∨ limit ≤ lines.length → ∀ offset, offset = 0 ∨ limit ≤ lines.length →
      (if trailing ≠ [] then pushRecentStderrLine tools lines trailing limit else lines)
        = (lines ++ found tools (file.take offset ++ trailing)).take limit := by
    intro lines trailing hle hopen offset hdone
    by_cases hfull : limit ≤ lines.length
    · rw [take_of_full hle hfull, pushRecentStderrLine, if_pos hfull, ite_self]
    · obtain rfl := hdone.resolve_right hfull
      have hmem := hopen.resolve_right hfull
      rw [List.take_zero, List.nil_append, found, logLines_of_not_mem hmem]
      have hpush := push_length tools hle trailing
      rw [pushRecentStderrLine, if_neg hfull] at hpush ⊢
      have hone : [trailing].reverse.filterMap (recentStderrLine tools)
          = (recentStderrLine tools trailing).toList := by
        rw [List.reverse_singleton]
        cases hline : recentStderrLine tools trailing with
        | none => exact List.filterMap_cons_none hline
        | some line => exact List.filterMap_cons_some hline
      rw [hone, List.take_of_length_le hpush]
      by_cases hnil : trailing = []
      · rw [if_neg (not_not_intro hnil), hnil, filterMap_empty_line]
        exact (List.append_nil lines).symm
      · rw [if_pos hnil]
  induction fuel generalizing offset trailing lines with
  | zero =>
      obtain rfl := Nat.le_zero.mp hfuel
      exact hend lines trailing hle hopen 0 (Or.inl rfl)
  | succ fuel ih =>
      rw [scanChunks]
      by_cases hdone : offset = 0 ∨ limit ≤ lines.length
      · rw [if_pos hdone]
        exact hend lines trailing hle hopen offset hdone
      · rw [if_neg hdone]
        obtain ⟨hpos, hroom⟩ := not_or.mp hdone
        dsimp only
        generalize hread : min offset size = readLen
        have hlen : 0 < readLen ∧ readLen ≤ offset := by omega
        have hfront : file.take offset
            = file.take (offset - readLen) ++ (file.drop (offset - readLen)).take readLen := by
          rw [← List.take_add, Nat.sub_add_cancel hlen.2]
        obtain ⟨hsame, hle', hopen'⟩ := scanChunk_found tools limit
          (file.take (offset - readLen)) _ lines
          ((file.drop (offset - readLen)).take readLen ++ trailing) (Nat.le_refl _) hle hroom
        rw [ih (offset - readLen) _ _ (by omega) (by omega) hle' hopen', hsame, hfront,
          List.append_assoc]

theorem reverse_take_reverse {β : Type} (xs : List β) (n : Nat) :
    (xs.reverse.take n).reverse = lastOf n xs := by
  rw [List.reverse_take, List.reverse_reverse, List.length_reverse, lastOf]

/-- **THE BACKWARD SCAN** takes the last lines on stderr that have the bytes. -/
theorem recentStderrLines_eq (file : List UInt8) (limit : Nat) :
    recentStderrLinesFromFile tools (some file) limit
      = lastOf limit ((logLines file).filterMap (recentStderrLine tools)) := by
  rw [recentStderrLinesFromFile]
  by_cases hzero : limit = 0
  · rw [if_pos hzero, hzero, lastOf, Nat.sub_zero, List.drop_length]
  · rw [if_neg hzero]
    have hscan := scanChunks_lines tools (show 0 < chunkSize by decide) limit file
      file.length file.length [] [] (Nat.le_refl _) (Nat.le_refl _) (Nat.zero_le _)
      (Or.inl List.not_mem_nil)
    dsimp only at hscan ⊢
    rw [hscan, List.take_length, List.append_nil, List.nil_append, found, List.filterMap_reverse,
      reverse_take_reverse]

/-! ## The plain reading, line by line -/

/-- The lines of the decoded log are the decoded lines; an empty one at the end is none. -/
theorem plain_lines (file : List UInt8) :
    (splitInclusive (ascii newline) (scan file)).filterMap
        (fun line => errorLine tools (chars (line.rdropWhile isLineEndPiece)))
      = (logLines file).filterMap (fun line => errorLine tools (lineChars line)) := by
  have hnil : errorLine tools (lineChars []) = none := rfl
  obtain ⟨hlines, hrest⟩ := lines_scan newline_lt file
  rw [splitInclusive, hlines, hrest, logLines, List.filterMap_append, List.filterMap_append,
    List.map_map, List.filterMap_map]
  congr 1
  · refine List.filterMap_congr fun line _ => ?_
    show errorLine tools (chars ((scan line ++ [ascii newline]).rdropWhile isLineEndPiece))
      = errorLine tools (chars ((scan line).rdropWhile isLineEndPiece))
    rw [List.rdropWhile_concat_pos _ _ _ ((isLineEndPiece_iff _).mpr ⟨newline, rfl, rfl⟩)]
  · by_cases hempty : scan (rest newline file) = []
    · rw [if_pos hempty, List.filterMap_nil]
      have hnone : errorLine tools (lineChars (rest newline file)) = none := by
        rw [lineChars, hempty]
        exact hnil
      rw [List.filterMap_cons_none (f := fun line => errorLine tools (lineChars line)) hnone,
        List.filterMap_nil]
    · rw [if_neg hempty]
      rfl

/-- Turning away one accepted item makes the list shorter. -/
theorem filterMap_fewer {β γ : Type} {f g : β → Option γ} (h : ∀ x, f x = g x ∨ f x = none)
    (xs : List β) :
    (xs.filterMap f).length ≤ (xs.filterMap g).length
      ∧ ((xs.filterMap f).length = (xs.filterMap g).length → ∀ x ∈ xs, f x = g x) := by
  induction xs with
  | nil => exact ⟨Nat.le_refl _, fun _ x hx => nomatch hx⟩
  | cons x xs ih =>
      obtain ⟨hle, hall⟩ := ih
      rcases h x with hsame | hnone
      · cases hg : g x with
        | none =>
            rw [List.filterMap_cons_none (hsame.trans hg), List.filterMap_cons_none hg]
            exact ⟨hle, fun heq => List.forall_mem_cons.mpr ⟨hsame, hall heq⟩⟩
        | some z =>
            rw [List.filterMap_cons_some (hsame.trans hg), List.filterMap_cons_some hg,
              List.length_cons, List.length_cons]
            exact ⟨Nat.succ_le_succ hle,
              fun heq => List.forall_mem_cons.mpr ⟨hsame, hall (Nat.succ.inj heq)⟩⟩
      · rw [List.filterMap_cons_none hnone]
        cases hg : g x with
        | none =>
            rw [List.filterMap_cons_none hg]
            exact ⟨hle, fun heq => List.forall_mem_cons.mpr ⟨hnone.trans hg.symm, hall heq⟩⟩
        | some z =>
            rw [List.filterMap_cons_some hg, List.length_cons]
            exact ⟨Nat.le_succ_of_le hle, fun heq => by omega⟩

theorem lastOf_all {β : Type} {limit : Nat} {xs : List β} (h : xs.length ≤ limit) :
    lastOf limit xs = xs := by
  rw [lastOf, Nat.sub_eq_zero_of_le h, List.drop_zero]

variable (tools) in
/-- **THE BACKWARD SCAN AGREES** with the plain reading of a log, whatever the limit and
    wherever the chunks cut its lines, if and only if no line on stderr is hidden. -/
theorem scan_agrees_iff (file : List UInt8) :
    (∀ limit, recentStderrLinesFromFile tools (some file) limit = plainStderrLines tools file limit)
      ↔ ∀ line ∈ logLines file, ¬ Hidden tools line := by
  have hguard : ∀ line, recentStderrLine tools line = errorLine tools (lineChars line)
      ∨ recentStderrLine tools line = none := by
    intro line
    rw [recentStderrLine]
    split
    · exact Or.inl rfl
    · exact Or.inr rfl
  obtain ⟨hle, hall⟩ := filterMap_fewer hguard (logLines file)
  constructor
  · intro h
    have hfull := h ((logLines file).filterMap (fun line => errorLine tools (lineChars line))).length
    rw [recentStderrLines_eq, plainStderrLines, plain_lines, lastOf_all (Nat.le_refl _),
      lastOf_all hle] at hfull
    rintro line hline ⟨herror, hbytes⟩
    have hsame := hall (congrArg List.length hfull) line hline
    rw [recentStderrLine, if_neg hbytes] at hsame
    exact herror hsame.symm
  · intro h limit
    rw [recentStderrLines_eq, plainStderrLines, plain_lines]
    congr 1
    refine List.filterMap_congr fun line hline => ?_
    rw [recentStderrLine]
    split
    · rfl
    · next hbytes =>
        by_contra hne
        exact h line hline ⟨fun hnone => hne hnone.symm, hbytes⟩

/-- The line `[t] [std<ESC>[merr] x` is on stderr once its escape sequence is stripped; the
    scan passes over it. -/
theorem coloured_stream_hidden :
    recentStderrLinesFromFile plainLines
        (some [0x5B, 0x74, 0x5D, 0x20, 0x5B, 0x73, 0x74, 0x64, 0x1B, 0x5B, 0x6D, 0x65, 0x72, 0x72,
          0x5D, 0x20, 0x78, 0x0A]) 1
      ≠ plainStderrLines plainLines
        [0x5B, 0x74, 0x5D, 0x20, 0x5B, 0x73, 0x74, 0x64, 0x1B, 0x5B, 0x6D, 0x65, 0x72, 0x72,
          0x5D, 0x20, 0x78, 0x0A] 1 := by
  decide +kernel

end DevstackRecentErrors
