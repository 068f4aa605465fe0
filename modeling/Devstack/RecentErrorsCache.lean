import Devstack.Model
import Devstack.RecentErrors
import Devstack.Lib.Interleaving
import Devstack.Lib.StampedRead

/-! # The cache of recent errors — logs that are read while services write

    `recent_stderr_lines` of `src/app/queries/status.rs` is asked for the last lines on
    stderr of every service in every status request.  It takes the size and the
    modification time of the log, looks into a cache shared by all requests, else scans the
    log chunk by chunk, and caches what it found if size and time are still the same.
    Requests run at once, and services write meanwhile.

    * `kept_lines_true`: what is answered from the cache, or goes into it, is what the log
      had when the request looked, however logs are written and rewritten, if size and time
      tell that a log changed;
    * `errors_current`: for logs that are only appended to they do, and every answer is
      right for a moment of the request, also one that was read while lines came in.

    A read that fails is answered with no lines, and these are cached like others.  Logs
    that are removed while they are read are left out. -/

namespace DevstackRecentErrorsCache

open DevstackModel DevstackLogFmt DevstackLogLine DevstackLines DevstackRecentErrors
  DevstackStampedRead
open DevstackLiveTail DevstackMachine DevstackInterleaving

-- ── status.rs ─────────────────────────────────────────────────────────────────

structure LogFile where
  modified : Option Nat
  bytes : List UInt8

def content (log : Option LogFile) : Option (List UInt8) := log.map (·.bytes)

/-- `recent_stderr_signature`. -/
def recentStderrSignature (log : Option LogFile) : Option (Nat × Option Nat) :=
  log.map (fun file => (file.bytes.length, file.modified))

structure RecentStderrCacheEntry where
  len : Nat
  modified : Option Nat
  limit : Nat
  lines : List RecentErrorLine

/-- A path: what was there, moment by moment, and what is there now. -/
structure Log where
  past : List (Option LogFile)
  now : Option LogFile

def Log.history (log : Log) : List (Option LogFile) := log.past ++ [log.now]

/-- A call of `recent_stderr_lines`, and the moment at which it took the signature. -/
structure Request where
  path : String
  limit : Nat
  since : Nat

/-- What a call returned, before the moment `till`; `kept` if the lines came from the cache
    or were put there. -/
structure Answer where
  request : Request
  till : Nat
  lines : List RecentErrorLine
  kept : Bool

structure World where
  logs : String → Log
  /-- `RECENT_STDERR_CACHE`. -/
  cache : BTreeMap RecentStderrCacheEntry
  answers : List Answer

def World.history (w : World) (path : String) : List (Option LogFile) := (w.logs path).history

def World.answer (w : World) (request : Request) (lines : List RecentErrorLine) (kept : Bool) :
    World :=
  { w with
    answers := w.answers ++ [⟨request, (w.history request.path).length, lines, kept⟩] }

/-- `cached_recent_stderr_lines`. -/
def cachedRecentStderrLines (w : World) (path : String) (limit : Nat)
    (signature : Nat × Option Nat) : Option (List RecentErrorLine) :=
  match w.cache[path]? with
  | some entry =>
      if entry.limit = limit ∧ entry.len = signature.1 ∧ entry.modified = signature.2 then
        some entry.lines
      else none
  | none => none

/-- `recent_stderr_lines_from_file` between two reads. -/
inductive Reading where
  | opening
  | scanning (offset : Nat) (trailing : List UInt8) (lines : List RecentErrorLine)

/-- The calls of `recent_stderr_lines` that did not return. -/
inductive Call where
  | stat (path : String) (limit : Nat)
  | forget (request : Request)
  | lookup (request : Request) (signature : Nat × Option Nat)
  | read (request : Request) (signature : Nat × Option Nat) (reading : Reading)
  | check (request : Request) (signature : Nat × Option Nat) (lines : List RecentErrorLine)
  | store (request : Request) (signature : Nat × Option Nat) (lines : List RecentErrorLine)

def Call.path : Call → String
  | .stat path _ => path
  | .forget request | .lookup request _ | .read request _ _ | .check request _ _
  | .store request _ _ => request.path

section Reading

variable (tools : LineTools) (limit : Nat)

/-- The end of the scan. -/
def finishScan (scanned : List RecentErrorLine × List UInt8) : List RecentErrorLine :=
  (if scanned.2 ≠ [] then pushRecentStderrLine tools scanned.1 scanned.2 limit
    else scanned.1).reverse

/-- One read; a chunk that is not there any more is an error, and an error no lines. -/
def Reading.step (log : Option (List UInt8)) : Reading → Reading ⊕ List RecentErrorLine
  | .opening =>
      match log with
      | none => .inr []
      | some file => .inl (.scanning file.length [] [])
  | .scanning offset trailing lines =>
      if offset = 0 ∨ limit ≤ lines.length then .inr (finishScan tools limit (lines, trailing))
      else
        match log with
        | none => .inr []
        | some file =>
            if file.length < offset then .inr []
            else
              let readLen := min offset chunkSize
              let chunk := (file.drop (offset - readLen)).take readLen ++ trailing
              let scanned := scanChunk tools limit chunk.length lines chunk
              .inl (.scanning (offset - readLen) scanned.2 scanned.1)

/-- The lines that the read comes to, if the log stays as it is. -/
def Reading.finish (log : Option (List UInt8)) : Reading → List RecentErrorLine
  | .opening => recentStderrLinesFromFile tools log limit
  | .scanning offset trailing lines =>
      if offset = 0 ∨ limit ≤ lines.length then finishScan tools limit (lines, trailing)
      else
        match log with
        | none => []
        | some file =>
            if file.length < offset then []
            else
              finishScan tools limit
                (scanChunks tools chunkSize limit file offset offset trailing lines)

/-- The scan of a log as a reader. -/
def reader : Reader (Option (List UInt8)) Reading (List RecentErrorLine) :=
  ⟨.opening, Reading.step tools limit, Reading.finish tools limit⟩

end Reading

/-- The code of a call from one suspension point to the next; `ok` is whether a read of the
    log succeeds. -/
def Call.step (tools : LineTools) (ok : Bool) (w : World) : Call → World × List Call
  | .stat path limit =>
      let request : Request := ⟨path, limit, (w.logs path).past.length⟩
      if limit = 0 then (w.answer request [] true, [])
      else
        match recentStderrSignature (w.logs path).now with
        | none => (w, [.forget request])
        | some signature => (w, [.lookup request signature])
  | .forget request =>
      ({ w with cache := w.cache.erase request.path }.answer request [] true, [])
  | .lookup request signature =>
      match cachedRecentStderrLines w request.path request.limit signature with
      | some lines => (w.answer request lines true, [])
      | none => (w, [.read request signature .opening])
  | .read request signature reading =>
      if ok then
        match (reader tools request.limit).step (content (w.logs request.path).now) reading with
        | .inl reading => (w, [.read request signature reading])
        | .inr lines => (w, [.check request signature lines])
      else (w, [.check request signature []])
  | .check request signature lines =>
      if recentStderrSignature (w.logs request.path).now = some signature then
        (w, [.store request signature lines])
      else (w.answer request lines false, [])
  | .store request signature lines =>
      let entry : RecentStderrCacheEntry := ⟨signature.1, signature.2, request.limit, lines⟩
      ({ w with cache := w.cache.insert request.path entry }.answer request lines true, [])

inductive Action where
  | call (path : String) (limit : Nat)
  | run (position : Nat) (ok : Bool)
  | append (path : String) (modified : Option Nat) (bytes : List UInt8)
  | rewrite (path : String) (modified : Option Nat) (bytes : List UInt8)

abbrev Sys := World × List Call

/-- A log is written. -/
def World.write (w : World) (path : String) (file : LogFile) : World :=
  { w with
    logs := fun path' =>
      if path' = path then ⟨(w.logs path).history, some file⟩ else w.logs path' }

def sysStep (tools : LineTools) (s : Sys) : Action → Sys
  | .call path limit => (s.1, s.2 ++ [.stat path limit])
  | .run position ok => stepAt (Call.step tools) s (position, ok)
  | .append path modified bytes =>
      (s.1.write path ⟨modified, (content (s.1.logs path).now).getD [] ++ bytes⟩, s.2)
  | .rewrite path modified bytes => (s.1.write path ⟨modified, bytes⟩, s.2)

/-- Logs, nothing cached, no calls. -/
def start (logs : String → Option LogFile) : Sys :=
  (⟨fun path => ⟨[], logs path⟩, ∅, []⟩, [])

-- ── the scan as a reader ──────────────────────────────────────────────────────

section Scan

variable (tools : LineTools) (limit : Nat)

/-- More fuel than there is to read makes no difference. -/
theorem scanChunks_fuel (file : List UInt8) {fuel offset : Nat} (hle : offset ≤ fuel)
    (trailing : List UInt8) (lines : List RecentErrorLine) :
    scanChunks tools chunkSize limit file fuel offset trailing lines
      = scanChunks tools chunkSize limit file offset offset trailing lines := by
  induction offset using Nat.strong_induction_on generalizing fuel trailing lines with
  | _ offset ih =>
      cases offset with
      | zero => cases fuel <;> simp [scanChunks]
      | succ offset =>
          cases fuel with
          | zero => exact absurd hle (Nat.not_succ_le_zero offset)
          | succ fuel =>
              rw [scanChunks, scanChunks]
              split
              · rfl
              · dsimp only
                have hread : 0 < min (offset + 1) chunkSize :=
                  Nat.lt_min.mpr ⟨Nat.succ_pos offset, by decide⟩
                rw [ih _ (by omega) (show _ ≤ fuel by omega),
                  ih _ (by omega) (show _ ≤ offset by omega)]

theorem reader_step : (reader tools limit).step = Reading.step tools limit := rfl

theorem reader_finish : (reader tools limit).finish = Reading.finish tools limit := rfl

theorem finish_opening (hlimit : limit ≠ 0) (file : List UInt8) :
    Reading.finish tools limit (some file) (.scanning file.length [] [])
      = Reading.finish tools limit (some file) .opening := by
  have hscan : recentStderrLinesFromFile tools (some file) limit
      = finishScan tools limit
          (scanChunks tools chunkSize limit file file.length file.length [] []) := by
    rw [recentStderrLinesFromFile, if_neg hlimit]
    rfl
  rw [Reading.finish, Reading.finish, hscan]
  split
  · next hdone =>
      have hnil : file.length = 0 := hdone.resolve_right (by simpa using hlimit)
      rw [hnil]
      rfl
  · rw [if_neg (Nat.lt_irrefl _)]

/-- One chunk more or less to read. -/
theorem finish_scanning (file : List UInt8) {offset : Nat} (hle : offset ≤ file.length)
    (trailing : List UInt8) (lines : List RecentErrorLine) :
    Reading.finish tools limit (some file) (.scanning offset trailing lines)
      = finishScan tools limit
          (scanChunks tools chunkSize limit file offset offset trailing lines) := by
  rw [Reading.finish]
  split
  · next hdone =>
      have hscan : scanChunks tools chunkSize limit file offset offset trailing lines
          = (lines, trailing) := by
        cases offset with
        | zero => rfl
        | succ offset => rw [scanChunks, if_pos hdone]
      rw [hscan]
  · rw [if_neg (Nat.not_lt.mpr hle)]

/-- A chunk that was read. -/
theorem step_scanning {log : Option (List UInt8)} {offset : Nat} {trailing : List UInt8}
    {lines : List RecentErrorLine} {r : Reading}
    (h : Reading.step tools limit log (.scanning offset trailing lines) = .inl r) :
    ∃ file, log = some file ∧ offset ≤ file.length ∧ ¬ (offset = 0 ∨ limit ≤ lines.length)
      ∧ r = .scanning (offset - min offset chunkSize)
          (scanChunk tools limit ((file.drop (offset - min offset chunkSize)).take
            (min offset chunkSize) ++ trailing).length lines
            ((file.drop (offset - min offset chunkSize)).take (min offset chunkSize)
              ++ trailing)).2
          (scanChunk tools limit ((file.drop (offset - min offset chunkSize)).take
            (min offset chunkSize) ++ trailing).length lines
            ((file.drop (offset - min offset chunkSize)).take (min offset chunkSize)
              ++ trailing)).1 := by
  simp only [Reading.step] at h
  split at h
  · cases h
  · next hmore =>
      split at h
      · cases h
      · next file =>
          split at h
          · cases h
          · next hlen =>
              cases h
              exact ⟨file, rfl, Nat.not_lt.mp hlen, hmore, rfl⟩

theorem reader_lawful (hlimit : limit ≠ 0) : (reader tools limit).Lawful where
  onward := by
    intro log r r' hstep
    cases r with
    | opening =>
        cases log with
        | none => cases hstep
        | some file =>
            cases hstep
            exact finish_opening tools limit hlimit file
    | scanning offset trailing lines =>
        obtain ⟨file, rfl, hle, hmore, rfl⟩ := step_scanning tools limit hstep
        have hread : 0 < min offset chunkSize :=
          Nat.lt_min.mpr ⟨Nat.pos_of_ne_zero (fun h => hmore (Or.inl h)), by decide⟩
        rw [reader_finish, finish_scanning tools limit file (by omega),
          finish_scanning tools limit file hle]
        congr 1
        obtain ⟨fuel, rfl⟩ : ∃ fuel, offset = fuel + 1 := ⟨offset - 1, by omega⟩
        conv_rhs => rw [scanChunks, if_neg hmore]
        exact (scanChunks_fuel tools limit file (by omega) _ _).symm
  answers := by
    intro log r lines hstep
    cases r with
    | opening =>
        cases log with
        | none => cases hstep; rfl
        | some file => cases hstep
    | scanning offset trailing found =>
        simp only [reader_step, reader_finish, Reading.step, Reading.finish] at hstep ⊢
        split at hstep
        · next hdone =>
            cases hstep
            rw [if_pos hdone]
        · next hmore =>
            rw [if_neg hmore]
            split at hstep
            · cases hstep
              rfl
            · split at hstep
              · next hlen =>
                  cases hstep
                  exact (if_pos hlen).symm
              · cases hstep

/-- A log that grew. -/
def Extends : Option (List UInt8) → Option (List UInt8) → Prop
  | none, _ => True
  | some file, some file' => file <+: file'
  | some _, none => False

/-- The log was opened, and was at least this long. -/
def Settled (log : Option (List UInt8)) : Reading → Prop
  | .opening => False
  | .scanning offset _ _ => ∃ file, log = some file ∧ offset ≤ file.length

theorem extends_refl (log : Option (List UInt8)) : Extends log log := by
  cases log with
  | none => trivial
  | some file => exact List.prefix_refl file

theorem extends_antisymm (log log' : Option (List UInt8)) (h : Extends log log')
    (h' : Extends log' log) : log = log' := by
  cases log with
  | none =>
      cases log' with
      | none => rfl
      | some file' => exact h'.elim
  | some file =>
      cases log' with
      | none => exact h.elim
      | some file' =>
          have hpre : file <+: file' := h
          exact congrArg some
            (hpre.eq_of_length (Nat.le_antisymm hpre.length_le (List.IsPrefix.length_le h')))

/-- A chunk in front of what was the end of the log reads as it did. -/
theorem reader_stable : (reader tools limit).Stable Extends Settled where
  opens := by
    intro log r hstep
    cases log with
    | none => cases hstep
    | some file =>
        cases hstep
        exact ⟨file, rfl, Nat.le_refl _⟩
  stays := by
    intro log r r' hsettled hstep
    cases r with
    | opening => exact hsettled.elim
    | scanning offset trailing lines =>
        obtain ⟨file, rfl, hle, -, rfl⟩ := step_scanning tools limit hstep
        exact ⟨file, rfl, (Nat.sub_le _ _).trans hle⟩
  same := by
    intro log log' r hsettled hextends
    cases r with
    | opening => exact hsettled.elim
    | scanning offset trailing lines =>
        obtain ⟨file, rfl, hle⟩ := hsettled
        cases log' with
        | none => exact hextends.elim
        | some file' =>
            obtain ⟨more, rfl⟩ : file <+: file' := hextends
            have hchunk : ((file ++ more).drop (offset - min offset chunkSize)).take
                  (min offset chunkSize)
                = (file.drop (offset - min offset chunkSize)).take (min offset chunkSize) := by
              rw [List.drop_append_of_le_length (by omega),
                List.take_append_of_le_length (by rw [List.length_drop]; omega)]
            have hlen : ¬ (file ++ more).length < offset := by
              rw [List.length_append]
              omega
            simp only [reader_step, Reading.step, hchunk, if_neg hlen, if_neg (Nat.not_lt.mpr hle)]

end Scan

-- ── what a call knows ─────────────────────────────────────────────────────────

/-- Size and modification time tell that a log changed. -/
abbrev Told (h : List (Option LogFile)) : Prop := Stamped content recentStderrSignature h

/-- The log was only appended to. -/
abbrev Growing (h : List (Option LogFile)) : Prop := Grows content Extends h

theorem told_of_growing {h : List (Option LogFile)} (hgrowing : Growing h) : Told h := by
  refine stamped_of_grows extends_refl extends_antisymm (fun x z hextends hsignature => ?_) hgrowing
  cases x with
  | none =>
      cases z with
      | none => rfl
      | some file' => cases hsignature
  | some file =>
      cases z with
      | none => cases hsignature
      | some file' =>
          have hpre : file.bytes <+: file'.bytes := hextends
          have hsame := congrArg (Option.map Prod.fst) hsignature
          exact congrArg some (hpre.eq_of_length (Option.some.inj hsame)).symm

/-- The call took the signature when it was asked. -/
def Took (h : List (Option LogFile)) (request : Request) (signature : Nat × Option Nat) : Prop :=
  ∃ x, h[request.since]? = some x ∧ recentStderrSignature x = some signature

section Knowledge

variable (tools : LineTools)

/-- The lines are those of the log when the call took the signature. -/
def Then (h : List (Option LogFile)) (request : Request) (lines : List RecentErrorLine) : Prop :=
  ∃ x, h[request.since]? = some x
    ∧ lines = recentStderrLinesFromFile tools (content x) request.limit

/-- What a call that did not return relies on. -/
def Sound (h : List (Option LogFile)) : Call → Prop
  | .stat _ _ => True
  | .forget request => h[request.since]? = some none
  | .lookup request signature => request.limit ≠ 0 ∧ Took h request signature
  | .read request signature reading =>
      request.limit ≠ 0 ∧ Took h request signature
        ∧ WhileStill content h request.since
          (fun log => (reader tools request.limit).finish log reading
            = (reader tools request.limit).reads log)
        ∧ (Growing h → reading = .opening
          ∨ Opened content (reader tools request.limit) Settled h request.since reading)
  | .check request signature lines =>
      Took h request signature
        ∧ WhileStill content h request.since
          (fun log => lines = (reader tools request.limit).reads log)
        ∧ (Growing h → Current content (reader tools request.limit) h request.since lines)
  | .store request signature lines =>
      Took h request signature ∧ (Told h → Then tools h request lines)
        ∧ (Growing h → Current content (reader tools request.limit) h request.since lines)

/-- An answer is right: for the moment it was asked, or for a moment since then. -/
structure Answered (h : List (Option LogFile)) (answer : Answer) : Prop where
  kept : answer.kept = true → Told h → Then tools h answer.request answer.lines
  current : Growing h → ∃ (o : Nat) (x : Option LogFile), answer.request.since ≤ o
    ∧ o < answer.till ∧ h[o]? = some x
    ∧ answer.lines = recentStderrLinesFromFile tools (content x) answer.request.limit

/-- A cached entry is what was read of the log when it had the signature. -/
def Cached (h : List (Option LogFile)) (entry : RecentStderrCacheEntry) : Prop :=
  ∃ (m : Nat) (x : Option LogFile), h[m]? = some x
    ∧ recentStderrSignature x = some (entry.len, entry.modified)
    ∧ entry.lines = recentStderrLinesFromFile tools (content x) entry.limit

structure Keeps (w : World) : Prop where
  cache : ∀ (path : String) (entry : RecentStderrCacheEntry), w.cache[path]? = some entry →
    Told (w.history path) → Cached tools (w.history path) entry
  answers : ∀ answer ∈ w.answers, Answered tools (w.history answer.request.path) answer

variable {tools} {h : List (Option LogFile)} (now : Option LogFile)

theorem Took.push {request : Request} {signature : Nat × Option Nat}
    (htook : Took h request signature) : Took (h ++ [now]) request signature := by
  obtain ⟨x, hx, hsignature⟩ := htook
  exact ⟨x, getElem?_push hx now, hsignature⟩

theorem Then.push {request : Request} {lines : List RecentErrorLine}
    (hthen : Then tools h request lines) : Then tools (h ++ [now]) request lines := by
  obtain ⟨x, hx, hlines⟩ := hthen
  exact ⟨x, getElem?_push hx now, hlines⟩

/-- **NOBODY'S KNOWLEDGE IS LOST** when the log is written. -/
theorem Sound.push {call : Call} (hsound : Sound tools h call) : Sound tools (h ++ [now]) call := by
  cases call with
  | stat path limit => trivial
  | forget request => exact getElem?_push hsound now
  | lookup request signature => exact ⟨hsound.1, hsound.2.push now⟩
  | read request signature reading =>
      obtain ⟨hlimit, htook, hstill, hopened⟩ := hsound
      exact ⟨hlimit, htook.push now, hstill.push now,
        fun hgrows => (hopened hgrows.of_push).imp_right (fun hopened => hopened.push now)⟩
  | check request signature lines =>
      obtain ⟨htook, hstill, hcurrent⟩ := hsound
      exact ⟨htook.push now, hstill.push now, fun hgrows => (hcurrent hgrows.of_push).push now⟩
  | store request signature lines =>
      obtain ⟨htook, hthen, hcurrent⟩ := hsound
      exact ⟨htook.push now, fun htold => (hthen htold.of_push).push now,
        fun hgrows => (hcurrent hgrows.of_push).push now⟩

theorem Answered.push {answer : Answer} (hanswered : Answered tools h answer) :
    Answered tools (h ++ [now]) answer where
  kept := fun hkept htold => (hanswered.kept hkept htold.of_push).push now
  current := fun hgrows => by
    obtain ⟨o, x, hle, hlt, hx, hlines⟩ := hanswered.current hgrows.of_push
    exact ⟨o, x, hle, hlt, getElem?_push hx now, hlines⟩

theorem Cached.push {entry : RecentStderrCacheEntry} (hcached : Cached tools h entry) :
    Cached tools (h ++ [now]) entry := by
  obtain ⟨m, x, hx, hrest⟩ := hcached
  exact ⟨m, x, getElem?_push hx now, hrest⟩

end Knowledge

-- ── one step ──────────────────────────────────────────────────────────────────

section Step

variable {tools : LineTools} {w : World}

theorem history_now (w : World) (path : String) :
    (w.history path)[(w.history path).length - 1]? = some (w.logs path).now := by
  simp [World.history, Log.history]

theorem history_since (w : World) (path : String) :
    (w.history path)[(w.logs path).past.length]? = some (w.logs path).now := by
  simp [World.history, Log.history]

theorem reads_none (limit : Nat) (log : Option (List UInt8)) (h : limit = 0 ∨ log = none) :
    recentStderrLinesFromFile tools log limit = [] := by
  cases log with
  | none => rfl
  | some file => rw [recentStderrLinesFromFile, if_pos (h.resolve_right (fun h => by cases h))]

/-- What was right when the call was asked is right. -/
theorem Then.current {h : List (Option LogFile)} {request : Request}
    {lines : List RecentErrorLine} (hthen : Then tools h request lines) :
    Current content (reader tools request.limit) h request.since lines := by
  obtain ⟨x, hx, hlines⟩ := hthen
  exact ⟨request.since, x, Nat.le_refl _, hx, hlines⟩

theorem Keeps.answer (hkeeps : Keeps tools w) {request : Request} {lines : List RecentErrorLine}
    {kept : Bool}
    (hkept : kept = true → Told (w.history request.path) →
      Then tools (w.history request.path) request lines)
    (hcurrent : Growing (w.history request.path) →
      Current content (reader tools request.limit) (w.history request.path) request.since lines) :
    Keeps tools (w.answer request lines kept) := by
  refine ⟨hkeeps.cache, fun answer hmem => ?_⟩
  rcases List.mem_append.mp hmem with hmem | hmem
  · exact hkeeps.answers answer hmem
  · rw [List.mem_singleton.mp hmem]
    refine ⟨hkept, fun hgrows => ?_⟩
    obtain ⟨o, x, hle, hx, hlines⟩ := hcurrent hgrows
    exact ⟨o, x, hle, (List.getElem?_eq_some_iff.mp hx).1, hx, hlines⟩

/-- A call returns what the log had when it was asked. -/
theorem Keeps.answer_then (hkeeps : Keeps tools w) {request : Request}
    {lines : List RecentErrorLine} (kept : Bool)
    (hthen : Told (w.history request.path) → Then tools (w.history request.path) request lines) :
    Keeps tools (w.answer request lines kept) :=
  hkeeps.answer (fun _ => hthen) (fun hgrows => (hthen (told_of_growing hgrows)).current)

theorem step_logs (ok : Bool) (call : Call) : (call.step tools ok w).1.logs = w.logs := by
  cases call with
  | stat path limit =>
      simp only [Call.step]
      split
      · rfl
      · split <;> rfl
  | lookup request signature => simp only [Call.step]; split <;> rfl
  | read request signature reading =>
      simp only [Call.step]
      split
      · split <;> rfl
      · rfl
  | check request signature lines => simp only [Call.step]; split <;> rfl
  | forget request | store request signature lines => rfl

/-- An entry that is found was read when the log had this signature. -/
theorem then_of_cached (hkeeps : Keeps tools w) {request : Request}
    {signature : Nat × Option Nat} {lines : List RecentErrorLine}
    (htook : Took (w.history request.path) request signature)
    (hcached : cachedRecentStderrLines w request.path request.limit signature = some lines)
    (htold : Told (w.history request.path)) :
    Then tools (w.history request.path) request lines := by
  rw [cachedRecentStderrLines] at hcached
  split at hcached
  · next entry hentry =>
      split at hcached
      · next hmatch =>
          obtain ⟨hlimit, hlen, hmodified⟩ := hmatch
          cases hcached
          obtain ⟨m, x, hx, hsignature, hlines⟩ := hkeeps.cache request.path entry hentry htold
          obtain ⟨y, hy, htaken⟩ := htook
          have hsame : recentStderrSignature x = recentStderrSignature y := by
            rw [hsignature, htaken, hlen, hmodified]
          exact ⟨y, hy, by rw [hlines, hlimit, htold.same hx hy hsame]⟩
      · cases hcached
  · cases hcached

theorem since_le {h : List (Option LogFile)} {request : Request} {signature : Nat × Option Nat}
    (htook : Took h request signature) : request.since ≤ h.length - 1 := by
  obtain ⟨x, hx, -⟩ := htook
  exact Nat.le_sub_one_of_lt (List.getElem?_eq_some_iff.mp hx).1

/-- A read of the log as it is. -/
theorem read_sound {request : Request} {signature : Nat × Option Nat} {reading : Reading}
    (hsound : Sound tools (w.history request.path) (.read request signature reading)) :
    ∀ t ∈ ((Call.read request signature reading).step tools true w).2,
      Sound tools (w.history t.path) t := by
  obtain ⟨hlimit, htook, hstill, hopened⟩ := hsound
  have hlawful := reader_lawful tools request.limit hlimit
  have hstable := reader_stable tools request.limit
  have hnow := history_now w request.path
  have hle := since_le htook
  intro t ht
  simp only [Call.step, if_true] at ht
  split at ht
  · next reading' hstep =>
      rw [List.mem_singleton.mp ht]
      refine ⟨hlimit, htook, hstill.imp hle hnow (fun hfinish => ?_), fun hgrows => Or.inr ?_⟩
      · exact (hlawful.onward hstep).trans hfinish
      · rcases hopened hgrows with rfl | hopened
        · exact opened_start hlawful hstable hle hnow hstep
        · exact hopened.onward hlawful hstable extends_refl hgrows hnow hstep
  · next lines hstep =>
      rw [List.mem_singleton.mp ht]
      refine ⟨htook, hstill.imp hle hnow (fun hfinish => ?_), fun hgrows => ?_⟩
      · exact (hlawful.answers hstep).trans hfinish
      · rcases hopened hgrows with rfl | hopened
        · exact ⟨_, _, hle, hnow, hlawful.answers hstep⟩
        · exact hopened.answer hlawful hstable extends_refl hgrows hnow hstep

/-- **A STEP OF A CALL** leaves a cache that is right, answers that are right, and calls
    that rely on what is so; no read fails in it. -/
theorem step_keeps {call : Call} (hkeeps : Keeps tools w)
    (hsound : Sound tools (w.history call.path) call) :
    Keeps tools (call.step tools true w).1
      ∧ ∀ t ∈ (call.step tools true w).2, Sound tools (w.history t.path) t := by
  cases call with
  | stat path limit =>
      have hsince := history_since w path
      simp only [Call.step]
      split
      · next hzero =>
          refine ⟨hkeeps.answer_then true (fun _ => ⟨_, hsince, ?_⟩), fun t ht => (by cases ht)⟩
          exact (reads_none limit _ (Or.inl hzero)).symm
      · next hlimit =>
          split
          · next hnone =>
              refine ⟨hkeeps, fun t ht => ?_⟩
              rw [List.mem_singleton.mp ht]
              exact hsince.trans (congrArg some (Option.map_eq_none_iff.mp hnone))
          · next signature hsome =>
              refine ⟨hkeeps, fun t ht => ?_⟩
              rw [List.mem_singleton.mp ht]
              exact ⟨hlimit, _, hsince, hsome⟩
  | forget request =>
      have herased : Keeps tools { w with cache := w.cache.erase request.path } := by
        refine ⟨fun path entry hentry => ?_, hkeeps.answers⟩
        rw [Std.ExtTreeMap.getElem?_erase] at hentry
        split at hentry
        · cases hentry
        · exact hkeeps.cache path entry hentry
      exact ⟨herased.answer_then true (fun _ => ⟨none, hsound, rfl⟩), fun t ht => (by cases ht)⟩
  | lookup request signature =>
      obtain ⟨hlimit, htook⟩ := hsound
      simp only [Call.step]
      split
      · next lines hcached =>
          exact ⟨hkeeps.answer_then true (then_of_cached hkeeps htook hcached),
            fun t ht => (by cases ht)⟩
      · refine ⟨hkeeps, fun t ht => ?_⟩
        rw [List.mem_singleton.mp ht]
        exact ⟨hlimit, htook, fun _ _ => rfl, fun _ => Or.inl rfl⟩
  | read request signature reading =>
      refine ⟨?_, read_sound hsound⟩
      simp only [Call.step, if_true]
      split
      · exact hkeeps
      · exact hkeeps
  | check request signature lines =>
      obtain ⟨⟨x, hx, htaken⟩, hstill, hcurrent⟩ := hsound
      simp only [Call.step]
      split
      · next hsame =>
          refine ⟨hkeeps, fun t ht => ?_⟩
          rw [List.mem_singleton.mp ht]
          refine ⟨⟨x, hx, htaken⟩, fun htold => ⟨x, hx, ?_⟩, hcurrent⟩
          exact hstill.validated htold hx (history_now w request.path) (htaken.trans hsame.symm)
      · exact ⟨hkeeps.answer (fun hkept => (by cases hkept)) hcurrent, fun t ht => (by cases ht)⟩
  | store request signature lines =>
      obtain ⟨htook, hthen, hcurrent⟩ := hsound
      let entry : RecentStderrCacheEntry := ⟨signature.1, signature.2, request.limit, lines⟩
      have hstored : Keeps tools { w with cache := w.cache.insert request.path entry } := by
        refine ⟨fun path entry' hentry htold => ?_, hkeeps.answers⟩
        rw [Std.ExtTreeMap.getElem?_insert] at hentry
        split at hentry
        · next heq =>
            rw [Std.LawfulEqCmp.compare_eq_iff_eq] at heq
            subst heq
            cases hentry
            obtain ⟨x, hx, htaken⟩ := htook
            obtain ⟨y, hy, hlines⟩ := hthen htold
            obtain rfl := Option.some.inj (hx.symm.trans hy)
            exact ⟨request.since, x, hx, htaken, hlines⟩
        · exact hkeeps.cache path entry' hentry htold
      exact ⟨hstored.answer (fun _ => hthen) hcurrent, fun t ht => (by cases ht)⟩

end Step

-- ── runs ──────────────────────────────────────────────────────────────────────

variable {tools : LineTools}

/-- No read of a log fails. -/
def Succeeds : Action → Prop
  | .run _ ok => ok = true
  | _ => True

instance : DecidablePred Succeeds
  | .run _ ok => inferInstanceAs (Decidable (ok = true))
  | .call .. | .append .. | .rewrite .. => .isTrue trivial

/-- No log is written over. -/
def Appends : Action → Prop
  | .rewrite .. => False
  | _ => True

instance : DecidablePred Appends
  | .rewrite .. => .isFalse id
  | .call .. | .append .. | .run .. => .isTrue trivial

/-- The cache and the answers are right, and all calls rely on what is so. -/
def Kept (tools : LineTools) (s : Sys) : Prop :=
  Keeps tools s.1 ∧ ∀ t ∈ s.2, Sound tools (s.1.history t.path) t

theorem history_write (w : World) (path path' : String) (file : LogFile) :
    (w.write path file).history path'
      = if path' = path then w.history path ++ [some file] else w.history path' := by
  rw [World.history, World.write]
  simp only
  split <;> rfl

theorem kept_write {s : Sys} (h : Kept tools s) (path : String) (file : LogFile) :
    Kept tools (s.1.write path file, s.2) := by
  -- what is right of the history of a path is right of a longer one
  have hpush : ∀ {P : List (Option LogFile) → Prop} (path' : String),
      (P (s.1.history path') → P (s.1.history path' ++ [some file])) →
      P (s.1.history path') → P ((s.1.write path file).history path') := by
    intro P path' hstep hP
    rw [history_write]
    split
    · next heq => exact heq ▸ hstep hP
    · exact hP
  refine ⟨⟨fun path' entry hentry => ?_, fun answer hmem => ?_⟩, fun t ht => ?_⟩
  · exact hpush (P := fun h => Told h → Cached tools h entry) path'
      (fun hcached htold => (hcached htold.of_push).push _) (h.1.cache path' entry hentry)
  · exact hpush (P := fun h => Answered tools h answer) _ (fun h => h.push _)
      (h.1.answers answer hmem)
  · exact hpush (P := fun h => Sound tools h t) _ (fun h => h.push _) (h.2 t ht)

theorem kept_sysStep (s : Sys) (a : Action) (h : Kept tools s) (hok : Succeeds a) :
    Kept tools (sysStep tools s a) := by
  cases a with
  | call path limit =>
      refine ⟨h.1, fun t ht => ?_⟩
      rcases List.mem_append.mp ht with ht | ht
      · exact h.2 t ht
      · rw [List.mem_singleton.mp ht]
        trivial
  | run position ok =>
      obtain rfl : ok = true := hok
      show Kept tools (stepAt (Call.step tools) s (position, true))
      cases hget : s.2[position]? with
      | none =>
          rw [stepAt_none _ hget]
          exact h
      | some call =>
          have hkeeps := step_keeps h.1 (h.2 call (List.mem_of_getElem? hget))
          have hworld : (stepAt (Call.step tools) s (position, true)).1
              = (call.step tools true s.1).1 := by
            rw [stepAt_some _ hget]
          have hhistory : ∀ path, (call.step tools true s.1).1.history path = s.1.history path :=
            fun path => congrArg (fun logs => (logs path).history) (step_logs true call)
          refine ⟨hworld ▸ hkeeps.1, fun t ht => ?_⟩
          rw [hworld, hhistory]
          rcases mem_stepAt _ hget ht with hmem | hmem
          · exact hkeeps.2 t hmem
          · exact h.2 t hmem
  | append path modified bytes | rewrite path modified bytes => exact kept_write h path _

theorem kept_reached (logs : String → Option LogFile) {as : List Action}
    (hok : ∀ a ∈ as, Succeeds a) : Kept tools (run (sysStep tools) (start logs) as) := by
  refine guarded_invariant (sysStep tools) kept_sysStep as _ ?_ (along_of_forall _ hok _)
  refine ⟨⟨fun path entry hentry => ?_, fun answer hmem => (by cases hmem)⟩,
    fun t ht => (by cases ht)⟩
  simp [start] at hentry

/-- **WHAT IS CACHED WAS READ**: however requests and writers interleave, lines that came
    from the cache, or went into it, are the lines on stderr of the log at the moment the
    request looked at it, if the log was never again what its size and modification time
    said it was before. -/
theorem kept_lines_true (logs : String → Option LogFile) {as : List Action}
    (hok : ∀ a ∈ as, Succeeds a) :
    let w := (run (sysStep tools) (start logs) as).1
    ∀ answer ∈ w.answers, answer.kept = true → Told (w.history answer.request.path) →
      ∃ log, (w.history answer.request.path)[answer.request.since]? = some log
        ∧ answer.lines
          = recentStderrLinesFromFile tools (content log) answer.request.limit :=
  fun answer hmem hkept htold => ((kept_reached logs hok).1.answers answer hmem).kept hkept htold

/-- The bytes of `[t] [stderr] ` and a letter, on a line. -/
def errorBytes (letter : UInt8) : List UInt8 :=
  [0x5B, 0x74, 0x5D, 0x20, 0x5B, 0x73, 0x74, 0x64, 0x65, 0x72, 0x72, 0x5D, 0x20, letter, 0x0A]

def oneError (path : String) : Option LogFile :=
  if path = "web.log" then some ⟨some 1, errorBytes 0x61⟩ else none

/-- A read, the log written over by a line of the same length, and two more reads. -/
def rewritten : List Action :=
  .call "web.log" 3 :: List.replicate 7 (.run 0 true)
    ++ .rewrite "web.log" (some 2) (errorBytes 0x62) :: .call "web.log" 3 :: .call "web.log" 3
    :: List.replicate 7 (.run 0 true) ++ List.replicate 2 (.run 0 true)

theorem kept_lines_true_rewritten :
    let w := (run (sysStep plainLines) (start oneError) rewritten).1
    w.answers.map (fun answer => answer.lines.map (·.message)) = [["a"], ["b"], ["b"]]
      ∧ ∀ answer ∈ w.answers, ∃ log,
        (w.history answer.request.path)[answer.request.since]? = some log
          ∧ answer.lines
            = recentStderrLinesFromFile plainLines (content log) answer.request.limit := by
  intro w
  have hpaths : ∀ answer ∈ w.answers, answer.kept = true
      ∧ ((w.history answer.request.path).map recentStderrSignature).Nodup := by decide +kernel
  refine ⟨by decide +kernel, fun answer hmem => ?_⟩
  obtain ⟨hkept, hnodup⟩ := hpaths answer hmem
  exact kept_lines_true oneError (by decide) answer hmem hkept (stamped_of_nodup hnodup)

-- ── logs that are appended to ─────────────────────────────────────────────────

theorem extends_trans {log log' log'' : Option (List UInt8)} (h : Extends log log')
    (h' : Extends log' log'') : Extends log log'' := by
  cases log with
  | none => trivial
  | some file =>
      cases log' with
      | none => exact h.elim
      | some file' =>
          cases log'' with
          | none => exact h'.elim
          | some file'' => exact List.IsPrefix.trans (show file <+: file' from h) h'

theorem growing_append {log : Log} (h : Growing log.history) (modified : Option Nat)
    (bytes : List UInt8) :
    Growing (log.history ++ [some ⟨modified, (content log.now).getD [] ++ bytes⟩]) := by
  have hnow : Extends (content log.now) (some ((content log.now).getD [] ++ bytes)) := by
    cases log.now with
    | none => trivial
    | some file => exact List.prefix_append file.bytes bytes
  refine List.pairwise_append.mpr ⟨h, List.pairwise_singleton _ _, fun x hx y hy => ?_⟩
  rw [List.mem_singleton.mp hy]
  rcases List.mem_append.mp hx with hpast | hpresent
  · exact extends_trans ((List.pairwise_append.mp h).2.2 x hpast log.now
      (List.mem_singleton_self _)) hnow
  · rw [List.mem_singleton.mp hpresent]
    exact hnow

theorem growing_reached (logs : String → Option LogFile) {as : List Action}
    (happends : ∀ a ∈ as, Appends a) (path : String) :
    Growing ((run (sysStep tools) (start logs) as).1.history path) := by
  have hstart : ∀ path, Growing ((start logs).1.history path) :=
    fun path => List.pairwise_singleton _ _
  have hstep : ∀ (s : Sys) (a : Action), (∀ path, Growing (s.1.history path)) → Appends a →
      ∀ path, Growing ((sysStep tools s a).1.history path) := by
    intro s a h happend path
    cases a with
    | call path' limit => exact h path
    | rewrite path' modified bytes => exact happend.elim
    | append path' modified bytes =>
        show Growing ((s.1.write path' _).history path)
        rw [history_write]
        split
        · exact growing_append (h path') modified bytes
        · exact h path
    | run position ok =>
        show Growing ((stepAt (Call.step tools) s (position, ok)).1.history path)
        cases hget : s.2[position]? with
        | none =>
            rw [stepAt_none _ hget]
            exact h path
        | some call =>
            rw [stepAt_some _ hget, World.history, step_logs]
            exact h path
  exact guarded_invariant (sysStep tools) hstep as _ hstart (along_of_forall _ happends _) path

/-- **RECENT ERRORS ARE CURRENT**: while services append to their logs, however requests,
    reads and writes interleave and whatever the modification times are, every request is
    answered with the lines on stderr that its log had at a moment since it was asked. -/
theorem errors_current (logs : String → Option LogFile) {as : List Action}
    (hok : ∀ a ∈ as, Succeeds a) (happends : ∀ a ∈ as, Appends a) :
    let w := (run (sysStep tools) (start logs) as).1
    ∀ answer ∈ w.answers, ∃ (moment : Nat) (log : Option LogFile),
      answer.request.since ≤ moment ∧ moment < answer.till
        ∧ (w.history answer.request.path)[moment]? = some log
        ∧ answer.lines
          = recentStderrLinesFromFile tools (content log) answer.request.limit :=
  fun answer hmem =>
    ((kept_reached logs hok).1.answers answer hmem).current (growing_reached logs happends _)

/-- A line comes in while the log is read, another before a second request and a third. -/
def appended : List Action :=
  .call "web.log" 3 :: List.replicate 4 (.run 0 true)
    ++ .append "web.log" (some 1) (errorBytes 0x62) :: List.replicate 3 (.run 0 true)
    ++ .call "web.log" 2 :: List.replicate 7 (.run 0 true)
    ++ .call "web.log" 2 :: List.replicate 2 (.run 0 true)

theorem errors_current_appended :
    let w := (run (sysStep plainLines) (start oneError) appended).1
    w.answers.map (fun answer => answer.lines.map (·.message)) = [["a"], ["a", "b"], ["a", "b"]]
      ∧ ∀ answer ∈ w.answers, ∃ (moment : Nat) (log : Option LogFile),
        answer.request.since ≤ moment ∧ moment < answer.till
          ∧ (w.history answer.request.path)[moment]? = some log
          ∧ answer.lines
            = recentStderrLinesFromFile plainLines (content log) answer.request.limit :=
  ⟨by decide +kernel, errors_current oneError (by decide) (by decide)⟩

end DevstackRecentErrorsCache
