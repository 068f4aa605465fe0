import Devstack.Lib.Machine
import Devstack.LogFmt
import Devstack.Readiness
import Mathlib.Data.List.Infix

/-! # Log readiness — the scan, the shim and the launches

    `log_regex_ready` applies the pattern to the whole log file.  The shim
    appends to that file across launches (`OpenOptions::append`), in records
    made by `encode_log_line`, and init tasks, post-init tasks and the API
    capture append to it too.

    A `LogState` is the file, as its finished lines and the open line after the
    last line break, next to the texts printed since the current launch began.
    The probe is right when it says whether one of these texts matches;
    `probeRight_along_iff` gives the runs on which it always is. -/

namespace DevstackLogRegex

open DevstackModel DevstackReadiness DevstackLogFmt DevstackMachine

/-- A log file and the texts printed since the current launch began. -/
structure LogState where
  lines : List String
  tail : String
  printed : List String

/-- What happens to the log file of a service; a printed text is a line without
    its line break. -/
inductive LogEvent where
  /-- `shim::run` opens the file (`create(true).append(true)`). -/
  | launch
  /-- `pump_lines` reads one line of the process and writes its record. -/
  | print (stream text timestamp : String)
  /-- The line break written after a record. -/
  | endLine
  /-- A record of an init task, a post-init task or the API capture. -/
  | other (record : String)

/-- The bytes of the file. -/
def content (lines : List String) (tail : String) : String :=
  lines.foldr (fun line rest => line ++ "\n" ++ rest) tail

variable (json : SerdeJson)

/-- The record `pump_lines` writes for a printed line. -/
def shimRecord (stream text timestamp : String) : String :=
  encodeLogLine json stream (String.ofList (stripAnsiIfNeeded text.toList)) timestamp

def step (s : LogState) : LogEvent → LogState
  | .launch => { s with printed := [] }
  | .print stream text timestamp =>
      { s with
        tail := s.tail ++ shimRecord json stream text timestamp
        printed := s.printed ++ [text] }
  | .endLine => { s with lines := s.lines ++ [s.tail], tail := "" }
  | .other record => { s with tail := s.tail ++ record }

/-! ## Patterns that stay within a line -/

/-- A pattern whose matches lie within one line: it matches two texts joined by
    a line break exactly when it matches one of them. -/
def Linewise (isMatch : String → Bool) : Prop :=
  ∀ a b : String, isMatch (a ++ "\n" ++ b) = (isMatch a || isMatch b)

/-- Whether one of the texts printed since the launch matches. -/
def Satisfied (isMatch : String → Bool) (s : LogState) : Bool := s.printed.any isMatch

/-- Such a pattern matches the file when it matches one of its lines. -/
theorem isMatch_content {isMatch : String → Bool} (hline : Linewise isMatch)
    (lines : List String) (tail : String) :
    isMatch (content lines tail) = (lines.any isMatch || isMatch tail) := by
  induction lines with
  | nil => simp [content]
  | cons line lines ih =>
      show isMatch (line ++ "\n" ++ content lines tail) = _
      rw [hline, ih, List.any_cons, Bool.or_assoc]

/-! ## The probe against the printed text -/

/-- Both evaluators of `log_regex` readiness say whether a text printed since
    the launch matches. -/
def ProbeRight (engine : RegexEngine) (path pattern : String) (isMatch : String → Bool)
    (s : LogState) : Prop :=
  ∀ obs : Observation, obs.file path = .text (content s.lines s.tail) →
    logRegexReady engine obs path pattern = .ok (Satisfied isMatch s)
      ∧ logFound isMatch path obs obs = Satisfied isMatch s

/-- The condition a step has to meet. -/
def StepOk (isMatch : String → Bool) (s : LogState) : LogEvent → Prop
  -- no line left by earlier launches or by other writers matches
  | .launch => isMatch s.tail = false ∧ ∀ line ∈ s.lines, isMatch line = false
  -- the record, on the line it lands on, matches when the text does
  | .print stream text timestamp =>
      (∃ line ∈ s.lines, isMatch line = true)
        ∨ isMatch (s.tail ++ shimRecord json stream text timestamp)
            = (Satisfied isMatch s || isMatch text)
  | .endLine => Satisfied isMatch s = true ∨ isMatch "" = false
  -- another writer's record does not change the answer
  | .other record =>
      (∃ line ∈ s.lines, isMatch line = true)
        ∨ isMatch (s.tail ++ record) = Satisfied isMatch s

section Exactness

variable {engine : RegexEngine} {path pattern : String} {isMatch : String → Bool}

/-- An observation that sees only the log file. -/
private def observe (path text : String) : Observation where
  connects _ := false
  httpGet _ := .error "connection refused"
  file p := if p = path then .text text else .missing
  runCommand _ _ _ := .ok true
  unitStatus _ := .ok none

/-- The probe is right when the scan of the file agrees with the printed texts. -/
theorem probeRight_iff (hcompile : engine.compile pattern = .ok isMatch) (s : LogState) :
    ProbeRight engine path pattern isMatch s
      ↔ isMatch (content s.lines s.tail) = Satisfied isMatch s := by
  constructor
  · intro h
    have hobs := (h (observe path (content s.lines s.tail)) (if_pos rfl)).1
    simp only [logRegexReady, observe, if_pos, hcompile] at hobs
    exact Except.ok.inj hobs
  · intro h obs hfile
    simp only [logRegexReady, logFound, hfile, hcompile, h, and_self]

/-- The file's answer and the printed texts' answer, line by line. -/
theorem probeRight_lines (hcompile : engine.compile pattern = .ok isMatch)
    (hline : Linewise isMatch) (s : LogState) :
    ProbeRight engine path pattern isMatch s
      ↔ (s.lines.any isMatch || isMatch s.tail) = Satisfied isMatch s := by
  rw [probeRight_iff hcompile, isMatch_content hline]

/-- Once a finished line matches, the open line no longer matters. -/
theorem any_or_eq_iff {lines : List String} {answer target : Bool}
    (h : lines.any isMatch = true → target = true) :
    (lines.any isMatch || answer) = target
      ↔ (∃ line ∈ lines, isMatch line = true) ∨ answer = target := by
  rw [← List.any_eq_true]
  cases hany : lines.any isMatch with
  | true => rw [h hany]; simp
  | false => simp

/-- A launch is followed by a right probe exactly when nothing in the file matches. -/
theorem probeRight_launch (hcompile : engine.compile pattern = .ok isMatch)
    (hline : Linewise isMatch) (s : LogState) :
    ProbeRight engine path pattern isMatch (step json s .launch)
      ↔ StepOk json isMatch s .launch := by
  rw [probeRight_lines hcompile hline]
  simp only [step, Satisfied, StepOk, List.any_nil, Bool.or_eq_false_iff, List.any_eq_false,
    Bool.not_eq_true]
  exact and_comm

/-- From a right state, a step leads to a right state exactly when it meets its
    condition. -/
theorem probeRight_step (hcompile : engine.compile pattern = .ok isMatch)
    (hline : Linewise isMatch) (s : LogState) (a : LogEvent)
    (hright : ProbeRight engine path pattern isMatch s) :
    ProbeRight engine path pattern isMatch (step json s a) ↔ StepOk json isMatch s a := by
  rw [probeRight_lines hcompile hline] at hright
  cases a with
  | launch => exact probeRight_launch json hcompile hline s
  | print stream text timestamp =>
      rw [probeRight_lines hcompile hline]
      have hafter : Satisfied isMatch (step json s (.print stream text timestamp))
          = (Satisfied isMatch s || isMatch text) := by simp [Satisfied, step]
      rw [hafter]
      refine any_or_eq_iff ?_
      show s.lines.any isMatch = true → (Satisfied isMatch s || isMatch text) = true
      intro hany
      rw [← hright, hany]; rfl
  | endLine =>
      rw [probeRight_lines hcompile hline]
      have hafter : Satisfied isMatch (step json s .endLine) = Satisfied isMatch s := rfl
      rw [hafter]
      simp only [step, StepOk, List.any_append, List.any_cons, List.any_nil, Bool.or_false]
      rw [hright]
      cases Satisfied isMatch s <;> simp
  | other record =>
      rw [probeRight_lines hcompile hline]
      refine any_or_eq_iff ?_
      show s.lines.any isMatch = true → Satisfied isMatch s = true
      intro hany
      rw [← hright, hany]; rfl

/-- **THE RUNS ON WHICH LOG READINESS IS RIGHT**: for a pattern whose matches
    lie within one line, from the first launch on, the probe is right in every
    state reached if and only if every step meets its condition. -/
theorem probeRight_along_iff (hcompile : engine.compile pattern = .ok isMatch)
    (hline : Linewise isMatch) (s : LogState) (events : List LogEvent) :
    Along (step json) (fun s a => ProbeRight engine path pattern isMatch (step json s a)) s
        (.launch :: events)
      ↔ Along (step json) (StepOk json isMatch) s (.launch :: events) := by
  rw [along_cons, along_cons]
  have hlaunch : ProbeRight engine path pattern isMatch (step json s .launch)
      ↔ StepOk json isMatch s .launch := probeRight_launch json hcompile hline s
  have hrest : ∀ s', ProbeRight engine path pattern isMatch s' →
      (Along (step json) (fun s a => ProbeRight engine path pattern isMatch (step json s a)) s'
          events
        ↔ Along (step json) (StepOk json isMatch) s' events) :=
    along_congr (step json) (fun s a hs => probeRight_step json hcompile hline s a hs)
      (fun _ _ _ h => h) events
  constructor
  · rintro ⟨hright, halong⟩
    exact ⟨hlaunch.mp hright, (hrest _ hright).mp halong⟩
  · rintro ⟨hok, halong⟩
    have hright := hlaunch.mpr hok
    exact ⟨hright, (hrest _ hright).mpr halong⟩

end Exactness

/-! ## Literal patterns -/

/-- A word without the separator occurs in a joined text exactly when it occurs
    on one side. -/
theorem infix_append_cons_iff {α : Type} {word : List α} {sep : α} (hsep : sep ∉ word)
    (a b : List α) : word <:+: a ++ sep :: b ↔ word <:+: a ∨ word <:+: b := by
  have hpre : ∀ l : List α, word <+: l ++ sep :: b → word <+: l := by
    intro l hword
    by_cases hlen : word.length ≤ l.length
    · exact List.prefix_of_prefix_length_le hword (List.prefix_append l _) hlen
    · have hsep' : l ++ [sep] <+: l ++ sep :: b := ⟨b, by rw [List.append_assoc]; rfl⟩
      have hl : l ++ [sep] <+: word := by
        refine List.prefix_of_prefix_length_le hsep' hword ?_
        rw [List.length_append, List.length_singleton]; omega
      exact absurd (hl.subset (by simp)) hsep
  induction a with
  | nil =>
      rw [List.nil_append, List.infix_cons_iff]
      constructor
      · rintro (h | h)
        · exact Or.inl (hpre [] h).isInfix
        · exact Or.inr h
      · rintro (h | h)
        · rw [List.infix_nil.mp h]; exact Or.inr (List.nil_infix)
        · exact Or.inr h
  | cons x a ih =>
      rw [List.cons_append, List.infix_cons_iff, List.infix_cons_iff]
      constructor
      · rintro (h | h)
        · exact Or.inl (Or.inl (hpre (x :: a) h))
        · rcases ih.mp h with h | h
          · exact Or.inl (Or.inr h)
          · exact Or.inr h
      · rintro ((h | h) | h)
        · exact Or.inl (h.trans (List.prefix_append (x :: a) (sep :: b)))
        · exact Or.inr (ih.mpr (Or.inl h))
        · exact Or.inr (ih.mpr (Or.inr h))

/-- `Regex::new` and `is_match` for patterns of letters, digits and dashes. -/
def literalEngine : RegexEngine where
  compile pattern :=
    if pattern.toList.all (fun c => c.isAlphanum || c == '-') then
      .ok (fun text => decide (pattern.toList <:+: text.toList))
    else .error "not a literal pattern"

/-- A literal pattern stays within a line. -/
theorem linewise_literal {pattern : String} (hsep : '\n' ∉ pattern.toList) :
    Linewise (fun text => decide (pattern.toList <:+: text.toList)) := by
  intro a b
  have happ : (a ++ "\n" ++ b).toList = a.toList ++ '\n' :: b.toList := by simp
  show decide _ = (decide _ || decide _)
  rw [happ, ← Bool.decide_or]
  exact decide_eq_decide.mpr (infix_append_cons_iff hsep a.toList b.toList)

/-- `serde_json` on texts that are no JSON and need no escapes but `\"` and `\\`. -/
def plainJson : SerdeJson where
  Value := String
  string text :=
    "\"" ++ String.ofList (text.toList.flatMap (fun c =>
      if c = '"' ∨ c = '\\' then ['\\', c] else [c])) ++ "\""
  parseObject _ := none
  printObject map :=
    .ok ("\x7b" ++ ",".intercalate (map.toList.map (fun kv => "\"" ++ kv.1 ++ "\":" ++ kv.2))
      ++ "\x7d")

/-- The matcher of the pattern `worker-ready`. -/
def workerReady : String → Bool :=
  fun text => decide ("worker-ready".toList <:+: text.toList)

theorem probeRight_along_iff_worker :
    Along (step plainJson)
      (fun s a => ProbeRight literalEngine "/logs/web.log" "worker-ready" workerReady
        (step plainJson s a)) ⟨[], "", []⟩
      [.launch, .print "stdout" "booting" "T1", .endLine, .print "stdout" "worker-ready" "T2",
        .endLine] :=
  (probeRight_along_iff plainJson rfl (linewise_literal (by decide)) ⟨[], "", []⟩ _).mpr
    ⟨⟨by decide, by decide⟩, Or.inr (by decide), Or.inr (by decide), Or.inr (by decide),
      Or.inl (by decide), trivial⟩

/-- After a restart the line of the old launch still answers for the new one. -/
theorem probe_sees_old_launch :
    ¬ ProbeRight literalEngine "/logs/web.log" "worker-ready" workerReady
        (run (step plainJson) ⟨[], "", []⟩
          [.launch, .print "stdout" "worker-ready" "T1", .endLine, .launch]) := by
  rw [probeRight_iff rfl]
  decide

end DevstackLogRegex
