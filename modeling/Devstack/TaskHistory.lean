import Mathlib.Data.List.Perm.Subperm
import Mathlib.Data.List.Permutation
import Mathlib.Data.List.Sublists
import Devstack.AtomicWrite
import Mathlib.Algebra.GroupWithZero.Nat

/-! # Task history — completions that append to one file

    `TaskHistory::load`, `TaskHistory::append` and `append_task_execution` of
    `src/services/tasks/history.rs`, over the steps of `atomic_write`.  Every completion
    loads the history, adds its execution and writes the whole history again; detached
    tasks, the init and post-init tasks of services and the command line do so on their
    own.

    * `solo_step`: a write that is alone with its temporary file leaves the path as it is
      until it replaces it;
    * `inv_step`: while no other write is under way when a history is loaded, what was
      loaded is what is there when it is replaced;
    * `history_kept`: so every completed execution has its entry, once. -/

namespace DevstackTaskHistory

open DevstackFiles DevstackInterleaving DevstackMachine DevstackAtomicWrite

-- ── services/tasks/model.rs ───────────────────────────────────────────────────

inductive TaskLogScope where
  | run (runId : String)
  | adHoc
  deriving DecidableEq

structure TaskResult where
  exitCode : Int
  durationMs : Nat

structure TaskExecution where
  task : String
  startedAt : String
  finishedAt : String
  exitCode : Int
  durationMs : Nat
  logFile : String
  scope : String
  deriving DecidableEq

/-- What `serde_json` prints for a history, and reads. -/
structure HistoryJson where
  serialize : List TaskExecution → List UInt8
  parse : List UInt8 → Except String (List TaskExecution)

-- ── services/tasks/history.rs ─────────────────────────────────────────────────

/-- The file name of `task_history_path` and `ad_hoc_task_history_path`. -/
def historyFile : String := "history.json"

/-- `task_scope_label`. -/
def taskScopeLabel : TaskLogScope → String
  | .run runId => s!"run:{runId}"
  | .adHoc => "adhoc"

/-- The execution that `append_task_execution` adds. -/
def taskExecution (taskName : String) (scope : TaskLogScope) (startedAt finishedAt : String)
    (result : TaskResult) : TaskExecution where
  task := taskName
  startedAt := startedAt
  finishedAt := finishedAt
  exitCode := result.exitCode
  durationMs := min result.durationMs (2 ^ 64 - 1)
  logFile := s!"{taskName}.log"
  scope := taskScopeLabel scope

/-- Where the append of a completed execution stands: before it, after it found the
    file, writing the new history, ended by an error of the load. -/
inductive Stage where
  | completed
  | reading
  | writing (writer : Writer)
  | failed

structure Append where
  execution : TaskExecution
  stage : Stage

section Json

variable (json : HistoryJson)

/-- `TaskHistory::load`. -/
def load (f : Files String) : Except String (List TaskExecution) :=
  match f.content historyFile with
  | none => .ok []
  | some bytes => json.parse bytes

/-- `TaskHistory::append`, before its first step on the disk. -/
def appended (history : List TaskExecution) (execution : TaskExecution) : Writer :=
  ⟨⟨historyFile, json.serialize (history ++ [execution])⟩, .begin⟩

/-- A step of `append_task_execution`: the question whether there is a file, its read, a
    step of `atomic_write`. -/
def Append.step (env : Env) (f : Files String) (t : Append) : Files String × List Append :=
  match t.stage with
  | .completed =>
      match f.content historyFile with
      | none => (f, [{ t with stage := .writing (appended json [] t.execution) }])
      | some _ => (f, [{ t with stage := .reading }])
  | .reading =>
      if env.fault then (f, [{ t with stage := .failed }])
      else
        match f.content historyFile with
        | none => (f, [{ t with stage := .failed }])
        | some bytes =>
            match json.parse bytes with
            | .error _ => (f, [{ t with stage := .failed }])
            | .ok history =>
                (f, [{ t with stage := .writing (appended json history t.execution) }])
  | .writing writer =>
      let next := writer.step env f
      (next.1, next.2.map (fun writer => { t with stage := .writing writer }))
  | .failed => (f, [t])

/-- Executions that have completed, or will, on a disk. -/
def completions (f : Files String) (executions : List TaskExecution) : Files String × List Append :=
  (f, executions.map (fun execution => ⟨execution, .completed⟩))

end Json

/-! ## What is kept -/

/-- A write of `atomic_write` that has not come to its end. -/
def underWay (writer : Writer) : Bool :=
  match writer.phase with
  | .begin | .writing _ _ | .synced => true
  | .done | .faulted | .missing => false

/-- The append has come to its end, with a history written or with an error. -/
def Append.ended (t : Append) : Bool :=
  match t.stage with
  | .completed | .reading => false
  | .writing writer => !underWay writer
  | .failed => true

/-- The executions whose appends have ended. -/
def ended (pool : List Append) : List TaskExecution :=
  pool.filterMap (fun t => if t.ended then some t.execution else none)

/-- The file parses as a history, and this has what was in it at first and every execution
    whose append has ended, each once. -/
def Kept (json : HistoryJson) (initial : List TaskExecution) (s : Files String × List Append) : Prop :=
  ∃ history, load json s.1 = .ok history ∧ history.Perm (initial ++ ended s.2)

/-- The step at which an append has loaded the history. -/
def loads (f : Files String) (t : Append) : Bool :=
  match t.stage with
  | .completed => (f.content historyFile).isNone
  | .reading => true
  | _ => false

/-- The condition on a step: no file operation fails, and when an append loads the
    history, no other one has loaded it without having replaced it. -/
def Undisturbed (s : Files String × List Append) (a : Nat × Env) : Prop :=
  a.2.fault = false
    ∧ ∀ t, s.2[a.1]? = some t → loads s.1 t = true →
      ∀ (j : Nat) (other : Append) (writer : Writer), s.2[j]? = some other →
        other.stage = .writing writer → underWay writer = false

/-- An append has loaded the history and not replaced it. -/
def Append.busy (t : Append) : Bool :=
  match t.stage with
  | .writing writer => underWay writer
  | _ => false

theorem undisturbed_iff (s : Files String × List Append) (a : Nat × Env) :
    Undisturbed s a
      ↔ a.2.fault = false
        ∧ (s.2[a.1]?.any (loads s.1) = true → ∀ other ∈ s.2, other.busy = false) := by
  constructor
  · rintro ⟨hfault, h⟩
    refine ⟨hfault, ?_⟩
    intro hany other hmem
    obtain ⟨t, hget, hloads⟩ := (Option.any_eq_true _ _).mp hany
    obtain ⟨j, hj⟩ := List.mem_iff_getElem?.mp hmem
    rw [Append.busy]
    split
    · next writer hwriting =>
        exact h t hget hloads j other writer hj hwriting
    · rfl
  · rintro ⟨hfault, h⟩
    refine ⟨hfault, ?_⟩
    intro t hget hloads j other writer hj hwriting
    have hbusy := h (by rw [hget]; exact hloads) other (List.mem_of_getElem? hj)
    rw [Append.busy, hwriting] at hbusy
    exact hbusy

instance (s : Files String × List Append) (a : Nat × Env) : Decidable (Undisturbed s a) :=
  decidable_of_iff' _ (undisturbed_iff s a)

/-- What is assumed of `serde_json`: a history of these executions, each at most once, is
    read as it was printed. -/
def Faithful (json : HistoryJson) (executions : List TaskExecution) : Prop :=
  ∀ history : List TaskExecution, history.Subperm executions →
    json.parse (json.serialize history) = .ok history

/-! ## A write on its own -/

theorem history_ne_tmp : historyFile ≠ tmpPath historyFile := by decide

/-- A write that is under way and alone with its temporary file: the path is as it was, and
    the write goes on unless it failed; or the write has ended and the path holds its bytes. -/
theorem solo_step {f : Files String} {w : Writer} (env : Env) (hf : f.WellFormed)
    (hpath : w.call.path ≠ tmpPath w.call.path) (hholds : Holds f w) (hbusy : underWay w = true) :
    ∃ w', (w.step env f).2 = [w'] ∧ w'.call = w.call ∧ (w.step env f).1.WellFormed
      ∧ Holds (w.step env f).1 w'
      ∧ (w'.phase ≠ .done ∧ (env.fault = false → underWay w' = true)
          ∧ (w.step env f).1.content w.call.path = f.content w.call.path
        ∨ w'.phase = .done ∧ (w.step env f).1.content w.call.path = some w.call.data) := by
  have hprivate : Private [w.call] := by
    intro i call hcall
    cases i with
    | zero =>
        obtain rfl := Option.some.inj hcall
        refine Or.inl ⟨hpath, fun j other hother hne => ?_⟩
        cases j with
        | zero => exact absurd rfl hne
        | succ j => cases hother
    | succ i => cases hcall
  have hinv : DevstackAtomicWrite.Inv f [w.call] (f, [w]) := by
    refine ⟨hf, rfl, fun i v hv => ?_, fun _ _ => Or.inl rfl⟩
    cases i with
    | zero => exact Option.some.inj hv ▸ hholds
    | succ i => cases hv
  have hafter := DevstackAtomicWrite.inv_step hprivate hinv (0, env)
  obtain ⟨call, phase⟩ := w
  have hkeep : ∀ {f' : Files String} {w' : Writer},
      Writer.step env f ⟨call, phase⟩ = (f', [w']) →
      f'.WellFormed ∧ Holds f' w' := by
    intro f' w' hstep
    rw [stepAt_one Writer.step (s := (f, [⟨call, phase⟩])) (a := (0, env)) rfl hstep] at hafter
    exact ⟨hafter.wellFormed, hafter.holds 0 w' rfl⟩
  -- a failure ends the write and touches no file
  have hfailed : env.fault = true → ∀ phase' : Phase,
      Writer.step env f ⟨call, phase⟩ = (f, [⟨call, phase'⟩]) → phase' ≠ .done →
      ∃ w', (Writer.step env f ⟨call, phase⟩).2 = [w'] ∧ w'.call = call
        ∧ (Writer.step env f ⟨call, phase⟩).1.WellFormed
        ∧ Holds (Writer.step env f ⟨call, phase⟩).1 w'
        ∧ (w'.phase ≠ .done ∧ (env.fault = false → underWay w' = true)
            ∧ (Writer.step env f ⟨call, phase⟩).1.content call.path = f.content call.path
          ∨ w'.phase = .done
            ∧ (Writer.step env f ⟨call, phase⟩).1.content call.path = some call.data) := by
    intro hfault phase' hstep hdone
    obtain ⟨hwf, hholds'⟩ := hkeep hstep
    rw [hstep]
    refine ⟨_, rfl, rfl, hwf, hholds', Or.inl ⟨hdone, fun hnone => ?_, rfl⟩⟩
    rw [hfault] at hnone
    cases hnone
  cases phase with
  | begin =>
      by_cases hfault : env.fault = true
      · exact hfailed hfault .faulted (if_pos hfault) Phase.noConfusion
      have hstep : Writer.step env f ⟨call, .begin⟩ = ((f.create (tmpPath call.path)).1,
          [⟨call, .writing (f.create (tmpPath call.path)).2 0⟩]) := if_neg hfault
      obtain ⟨hwf, hholds'⟩ := hkeep hstep
      rw [hstep]
      exact ⟨_, rfl, rfl, hwf, hholds',
        Or.inl ⟨Phase.noConfusion, fun _ => rfl, create_content _ hf hpath⟩⟩
  | writing file written =>
      by_cases hmore : written < call.data.length
      · by_cases hfault : env.fault = true
        · refine hfailed hfault .faulted ?_ Phase.noConfusion
          simp [Writer.step, hmore, hfault]
        have hstep : Writer.step env f ⟨call, .writing file written⟩
            = (f.write file written (chunk env call.data written),
              [⟨call, .writing file (written + (chunk env call.data written).length)⟩]) := by
          simp [Writer.step, hmore, hfault]
        obtain ⟨hwf, hholds'⟩ := hkeep hstep
        rw [hstep]
        exact ⟨_, rfl, rfl, hwf, hholds',
          Or.inl ⟨Phase.noConfusion, fun _ => rfl, write_other hf hholds.1 hpath _ _⟩⟩
      · have hstep : Writer.step env f ⟨call, .writing file written⟩ = (f, [⟨call, .synced⟩]) := by
          simp [Writer.step, hmore]
        obtain ⟨hwf, hholds'⟩ := hkeep hstep
        rw [hstep]
        exact ⟨_, rfl, rfl, hwf, hholds', Or.inl ⟨Phase.noConfusion, fun _ => rfl, rfl⟩⟩
  | synced =>
      by_cases hfault : env.fault = true
      · exact hfailed hfault .faulted (if_pos hfault) Phase.noConfusion
      obtain ⟨file, hfile, hbytes⟩ := Option.map_eq_some_iff.mp hholds
      obtain ⟨f', hrename, hbytes', -, hnew, -⟩ := rename_ne hfile (Ne.symm hpath)
      have hstep : Writer.step env f ⟨call, .synced⟩ = (f', [⟨call, .done⟩]) := by
        simp [Writer.step, hfault, hrename]
      obtain ⟨hwf, hholds'⟩ := hkeep hstep
      rw [hstep]
      refine ⟨_, rfl, rfl, hwf, hholds', Or.inr ⟨rfl, ?_⟩⟩
      rw [content_of_file hnew, hbytes', hbytes]
  | done | faulted | missing => cases hbusy

/-! ## The pool -/

section Pool

variable {json : HistoryJson} {initial : List TaskExecution}

/-- The append at a position, apart from the others. -/
theorem ended_split {pool : List Append} {i : Nat} {t : Append} (h : pool[i]? = some t) :
    ended pool = ended (pool.take i) ++ (if t.ended then [t.execution] else [])
      ++ ended (pool.drop (i + 1)) := by
  rw [ended, filterMap_split _ h]
  cases t.ended <;> rfl

theorem ended_set {pool : List Append} {i : Nat} {t : Append} (h : pool[i]? = some t)
    (hnot : t.ended = false) (t' : Append) :
    (ended (pool.set i t')).Perm (ended pool ++ if t'.ended then [t'.execution] else []) := by
  obtain ⟨hlt, -⟩ := List.getElem?_eq_some_iff.mp h
  have hself : (pool.set i t')[i]? = some t' := List.getElem?_set_self hlt
  rw [ended_split h, ended_split hself, List.take_set_of_le (Nat.le_refl i),
    List.drop_set_of_lt (Nat.lt_succ_self i), hnot]
  simp only [Bool.false_eq_true, if_false, List.append_nil, List.append_assoc]
  exact List.Perm.append_left _ List.perm_append_comm

theorem ended_sublist (pool : List Append) : (ended pool).Sublist (pool.map (·.execution)) := by
  induction pool with
  | nil => exact List.Sublist.refl _
  | cons t pool ih =>
      rw [ended, List.filterMap_cons]
      cases t.ended with
      | true => exact ih.cons_cons t.execution
      | false => exact ih.cons t.execution

/-- An append that has not ended is none of those that have. -/
theorem ended_subperm {pool : List Append} {i : Nat} {t : Append} (h : pool[i]? = some t)
    (hnot : t.ended = false) :
    (ended pool ++ [t.execution]).Subperm (pool.map (·.execution)) := by
  obtain ⟨hlt, hget⟩ := List.getElem?_eq_some_iff.mp h
  have hall : pool.map (·.execution)
      = (pool.take i).map (·.execution) ++ ([t.execution]
        ++ (pool.drop (i + 1)).map (·.execution)) := by
    rw [← List.map_singleton, ← List.map_append, ← List.map_append, List.singleton_append, ← hget,
      List.getElem_cons_drop, List.take_append_drop]
  rw [hall, ended_split h, hnot]
  simp only [Bool.false_eq_true, if_false, List.append_nil, List.append_assoc]
  have hmoved : (ended (pool.take i) ++ (ended (pool.drop (i + 1)) ++ [t.execution])).Perm
      (ended (pool.take i) ++ ([t.execution] ++ ended (pool.drop (i + 1)))) :=
    List.Perm.append_left _ List.perm_append_comm
  exact hmoved.subperm.trans ((ended_sublist _).append
    ((List.Sublist.refl _).append (ended_sublist _))).subperm

/-! ## The invariant -/

/-- What an append that has loaded the history knows: its temporary file holds what it has
    written, and it will replace the history by the one that is there, with its own
    execution. -/
def Prepared (json : HistoryJson) (f : Files String) (t : Append) (writer : Writer) : Prop :=
  Holds f writer ∧ writer.call.path = historyFile
    ∧ ∃ history, load json f = .ok history
      ∧ writer.call.data = json.serialize (history ++ [t.execution])

structure Inv (json : HistoryJson) (initial executions : List TaskExecution)
    (s : Files String × List Append) : Prop where
  wellFormed : s.1.WellFormed
  executions : s.2.map (·.execution) = executions
  kept : Kept json initial s
  prepared : ∀ (i : Nat) (t : Append) (writer : Writer), s.2[i]? = some t →
    t.stage = .writing writer → underWay writer = true → Prepared json s.1 t writer
  alone : ∀ (i j : Nat) (t t' : Append) (writer writer' : Writer), s.2[i]? = some t →
    s.2[j]? = some t' → t.stage = .writing writer → t'.stage = .writing writer' →
    underWay writer = true → underWay writer' = true → i = j
  found : ∀ t ∈ s.2, t.stage = .reading → s.1.content historyFile ≠ none

variable {executions : List TaskExecution} {s : Files String × List Append}

theorem inv_completions {f : Files String} (hf : f.WellFormed)
    (hload : load json f = .ok initial) (executions : List TaskExecution) :
    Inv json initial executions (completions f executions) := by
  have hstage : ∀ (i : Nat) (t : Append), (completions f executions).2[i]? = some t →
      t.stage = .completed := by
    intro i t ht
    rw [completions, List.getElem?_map] at ht
    obtain ⟨execution, -, rfl⟩ := Option.map_eq_some_iff.mp ht
    rfl
  refine ⟨hf, ?_, ⟨initial, hload, ?_⟩, fun i t writer ht hwriting => ?_,
    fun i j t t' writer writer' ht _ hwriting => ?_, fun t ht hreading => ?_⟩
  · rw [completions, List.map_map]
    exact List.map_id' executions
  · have hnone : ended (completions f executions).2 = [] := by
      rw [ended, completions, List.filterMap_map]
      exact List.filterMap_eq_nil_iff.mpr fun _ _ => rfl
    rw [hnone, List.append_nil]
  · exact nomatch (hstage i t ht).symm.trans hwriting
  · exact nomatch (hstage i t ht).symm.trans hwriting
  · obtain ⟨i, hi⟩ := List.mem_iff_getElem?.mp ht
    exact nomatch (hstage i t hi).symm.trans hreading

/-- An append became another, on a disk with the same history: it has not ended, and if it
    is under way it is prepared, and the only one. -/
theorem inv_set {f' : Files String} {i : Nat} {t t' : Append}
    (h : Inv json initial executions s) (hget : s.2[i]? = some t)
    (hexecution : t'.execution = t.execution) (hwf : f'.WellFormed)
    (hkept : Kept json initial (f', s.2.set i t'))
    (hown : ∀ writer, t'.stage = .writing writer → underWay writer = true →
      Prepared json f' t' writer)
    (hothers : ∀ (j : Nat) (other : Append) (writer : Writer), s.2[j]? = some other → j ≠ i →
      other.stage = .writing writer → underWay writer = true →
      Prepared json f' other writer
        ∧ ∀ own, t'.stage = .writing own → underWay own = false)
    (hstays : s.1.content historyFile ≠ none → f'.content historyFile ≠ none)
    (hfound : t'.stage = .reading → f'.content historyFile ≠ none) :
    Inv json initial executions (f', s.2.set i t') := by
  obtain ⟨hlt, -⟩ := List.getElem?_eq_some_iff.mp hget
  have hself : (s.2.set i t')[i]? = some t' := List.getElem?_set_self hlt
  -- the append at a position is the new one, or the one that was there
  have hback : ∀ (j : Nat) (u : Append), (s.2.set i t')[j]? = some u →
      j = i ∧ u = t' ∨ j ≠ i ∧ s.2[j]? = some u := by
    intro j u hu
    by_cases hj : j = i
    · subst hj
      exact Or.inl ⟨rfl, Option.some.inj (hu.symm.trans hself)⟩
    · rw [List.getElem?_set_ne (Ne.symm hj)] at hu
      exact Or.inr ⟨hj, hu⟩
  refine ⟨hwf, ?_, hkept, fun j u writer hu hwriting hbusy => ?_,
    fun j k u u' writer writer' hu hu' hwriting hwriting' hbusy hbusy' => ?_,
    fun u hu hreading => ?_⟩
  · have hsame : (s.2.map (·.execution))[i]? = some t.execution := by
      rw [List.getElem?_map, hget, Option.map_some]
    obtain ⟨hlt', heq⟩ := List.getElem?_eq_some_iff.mp hsame
    rw [List.map_set, hexecution, ← heq, List.set_getElem_self, h.executions]
  · obtain ⟨rfl, rfl⟩ | ⟨hj, hold⟩ := hback j u hu
    · exact hown writer hwriting hbusy
    · exact (hothers j u writer hold hj hwriting hbusy).1
  · obtain ⟨hj, hnew⟩ | ⟨hj, hold⟩ := hback j u hu
    · obtain ⟨hk, -⟩ | ⟨hk, hold'⟩ := hback k u' hu'
      · rw [hj, hk]
      · have hfree := (hothers k u' writer' hold' hk hwriting' hbusy').2 writer (hnew ▸ hwriting)
        rw [hbusy] at hfree
        exact nomatch hfree
    · obtain ⟨hk, hnew⟩ | ⟨hk, hold'⟩ := hback k u' hu'
      · have hfree := (hothers j u writer hold hj hwriting hbusy).2 writer' (hnew ▸ hwriting')
        rw [hbusy'] at hfree
        exact nomatch hfree
      · exact h.alone j k u u' writer writer' hold hold' hwriting hwriting' hbusy hbusy'
  · obtain hold | rfl := List.mem_or_eq_of_mem_set hu
    · exact hstays (h.found u hold hreading)
    · exact hfound hreading

/-! ## A step -/

/-- What is loaded depends on the content of the file alone. -/
theorem load_congr {f f' : Files String} (h : f'.content historyFile = f.content historyFile) :
    load json f' = load json f := by
  rw [load, load, h]

theorem kept_set {i : Nat} {t t' : Append} {f' : Files String}
    (hkept : Kept json initial s) (hget : s.2[i]? = some t) (hnot : t.ended = false)
    (hnot' : t'.ended = false) (hcontent : f'.content historyFile = s.1.content historyFile) :
    Kept json initial (f', s.2.set i t') := by
  obtain ⟨history, hload, hperm⟩ := hkept
  refine ⟨history, (load_congr hcontent).trans hload, hperm.trans (List.Perm.append_left _ ?_)⟩
  have hended := ended_set hget hnot t'
  rw [hnot'] at hended
  simp only [Bool.false_eq_true, if_false, List.append_nil] at hended
  exact hended.symm

/-- A step that leaves the append as it is. -/
theorem stepAt_same {i : Nat} {env : Env} {t : Append} (hget : s.2[i]? = some t)
    (hstep : t.step json env s.1 = (s.1, [t])) :
    stepAt (Append.step json) s (i, env) = s := by
  obtain ⟨hlt, hin⟩ := List.getElem?_eq_some_iff.mp hget
  rw [stepAt_one (Append.step json) hget hstep, ← hin,
    List.set_getElem_self]

/-- An append loads the history. -/
theorem inv_loaded {i : Nat} {t : Append} {history : List TaskExecution}
    (h : Inv json initial executions s) (hget : s.2[i]? = some t) (hnot : t.ended = false)
    (hload : load json s.1 = .ok history)
    (halone : ∀ (j : Nat) (other : Append) (writer : Writer), s.2[j]? = some other →
      other.stage = .writing writer → underWay writer = false) :
    Inv json initial executions
      (s.1, s.2.set i { t with stage := .writing (appended json history t.execution) }) := by
  refine inv_set h hget rfl h.wellFormed (kept_set h.kept hget hnot rfl rfl)
    (fun writer hwriting _ => ?_) (fun j other writer hother _ hwriting hbusy => ?_)
    (fun hne => hne) (fun hreading => nomatch hreading)
  · obtain rfl := Stage.writing.inj hwriting
    exact ⟨trivial, rfl, history, hload, rfl⟩
  · rw [halone j other writer hother hwriting] at hbusy
    exact nomatch hbusy

/-- The one write that is under way takes a step: the history is as it was, or has one
    entry more. -/
theorem inv_written {i : Nat} {t : Append} {writer : Writer} {env : Env}
    (hfaithful : Faithful json (initial ++ executions)) (h : Inv json initial executions s)
    (hget : s.2[i]? = some t) (hwriting : t.stage = .writing writer)
    (hbusy : underWay writer = true) (hfault : env.fault = false) :
    Inv json initial executions (stepAt (Append.step json) s (i, env)) := by
  obtain ⟨hholds, hpath, history, hload, hdata⟩ := h.prepared i t writer hget hwriting hbusy
  have hne : writer.call.path ≠ tmpPath writer.call.path := by
    rw [hpath]
    exact history_ne_tmp
  obtain ⟨writer', hnext, hcall, hwf, hholds', hcontent⟩ :=
    solo_step env h.wellFormed hne hholds hbusy
  have hstep : t.step json env s.1
      = ((writer.step env s.1).1, [{ t with stage := .writing writer' }]) := by
    rw [Append.step, hwriting]
    simp only [hnext, List.map_cons, List.map_nil]
  have hnot : t.ended = false := by
    rw [Append.ended, hwriting]
    simp only [hbusy, Bool.not_true]
  rw [stepAt_one (Append.step json) hget hstep]
  have hothers : ∀ (j : Nat) (other : Append) (w : Writer), s.2[j]? = some other → j ≠ i →
      other.stage = .writing w → underWay w = true → False :=
    fun j other w hother hj hw hb => hj (h.alone j i other t w writer hother hget hw hwriting hb hbusy)
  rw [hpath] at hcontent
  obtain ⟨-, hgoes, hsame⟩ | ⟨hdone, hreplaced⟩ := hcontent
  · have hbusy' := hgoes hfault
    refine inv_set h hget rfl hwf (kept_set h.kept hget hnot ?_ hsame) (fun w hw _ => ?_)
      (fun j other w hother hj hw hb => (hothers j other w hother hj hw hb).elim)
      (fun hfound => by rw [hsame]; exact hfound) (fun hreading => nomatch hreading)
    · simp only [Append.ended, hbusy', Bool.not_true]
    · obtain rfl := Stage.writing.inj hw
      exact ⟨hholds', hcall ▸ hpath, history, (load_congr hsame).trans hload, hcall ▸ hdata⟩
  · have hended : underWay writer' = false := by rw [underWay, hdone]
    obtain ⟨history', hload', hperm⟩ := h.kept
    obtain rfl := Except.ok.inj (hload.symm.trans hload')
    have hafter := ended_set hget hnot { t with stage := .writing writer' }
    simp only [Append.ended, hended, Bool.not_false, if_true] at hafter
    have hperm' : (history ++ [t.execution]).Perm
        (initial ++ ended (s.2.set i { t with stage := .writing writer' })) := by
      refine (hperm.append_right _).trans ?_
      rw [List.append_assoc]
      exact List.Perm.append_left _ hafter.symm
    have hsub : (history ++ [t.execution]).Subperm (initial ++ executions) := by
      refine (hperm.append_right _).subperm.trans ?_
      rw [List.append_assoc, ← h.executions]
      exact (List.subperm_append_left _).mpr (ended_subperm hget hnot)
    refine inv_set h hget rfl hwf ⟨history ++ [t.execution], ?_, hperm'⟩ (fun w hw hb => ?_)
      (fun j other w hother hj hw hb => (hothers j other w hother hj hw hb).elim)
      (fun _ => by rw [hreplaced]; exact fun hnone => nomatch hnone)
      (fun hreading => nomatch hreading)
    · rw [load, hreplaced, hdata]
      exact hfaithful _ hsub
    · obtain rfl := Stage.writing.inj hw
      rw [hended] at hb
      exact nomatch hb

/-- **A STEP** that no failure and no other write disturbs keeps the history. -/
theorem inv_step (hfaithful : Faithful json (initial ++ executions)) (s : Files String × List Append)
    (a : Nat × Env) (h : Inv json initial executions s) (hcond : Undisturbed s a) :
    Inv json initial executions (stepAt (Append.step json) s a) := by
  obtain ⟨i, env⟩ := a
  obtain ⟨hfault, halone⟩ : env.fault = false ∧ _ := hcond
  cases hget : s.2[i]? with
  | none =>
      rw [stepAt_none (Append.step json) hget]
      exact h
  | some t =>
      have hcontent : ∀ {history}, load json s.1 = .ok history → ∀ {bytes},
          s.1.content historyFile = some bytes → json.parse bytes = .ok history := by
        intro history hload bytes hbytes
        rw [load, hbytes] at hload
        exact hload
      cases hstage : t.stage with
      | completed =>
          have hnot : t.ended = false := by rw [Append.ended, hstage]
          cases hfile : s.1.content historyFile with
          | none =>
              have hstep : t.step json env s.1
                  = (s.1, [{ t with stage := .writing (appended json [] t.execution) }]) := by
                rw [Append.step, hstage]
                simp only [hfile]
              rw [stepAt_one (Append.step json) hget hstep]
              refine inv_loaded h hget hnot (by rw [load, hfile]) (halone t hget ?_)
              rw [loads, hstage, hfile]
              rfl
          | some bytes =>
              have hstep : t.step json env s.1 = (s.1, [{ t with stage := .reading }]) := by
                rw [Append.step, hstage]
                simp only [hfile]
              rw [stepAt_one (Append.step json) hget hstep]
              refine inv_set h hget rfl h.wellFormed (kept_set h.kept hget hnot rfl rfl)
                (fun writer hwriting => nomatch hwriting)
                (fun j other writer hother _ hwriting hbusy =>
                  ⟨h.prepared j other writer hother hwriting hbusy, fun own hown => nomatch hown⟩)
                (fun hne => hne) (fun _ => ?_)
              rw [hfile]
              exact fun hnone => nomatch hnone
      | reading =>
          have hnot : t.ended = false := by rw [Append.ended, hstage]
          obtain ⟨history, hload, -⟩ := h.kept
          cases hfile : s.1.content historyFile with
          | none => exact absurd hfile (h.found t (List.mem_of_getElem? hget) hstage)
          | some bytes =>
              have hstep : t.step json env s.1
                  = (s.1, [{ t with stage := .writing (appended json history t.execution) }]) := by
                rw [Append.step, hstage]
                simp only [hfault, hfile, hcontent hload hfile, Bool.false_eq_true, if_false]
              rw [stepAt_one (Append.step json) hget hstep]
              refine inv_loaded h hget hnot hload (halone t hget ?_)
              rw [loads, hstage]
      | writing writer =>
          cases hbusy : underWay writer with
          | true => exact inv_written hfaithful h hget hstage hbusy hfault
          | false =>
              have hstep : t.step json env s.1 = (s.1, [t]) := by
                have hwriter : writer.step env s.1 = (s.1, [writer]) := by
                  obtain ⟨call, phase⟩ := writer
                  cases phase with
                  | begin | writing _ _ | synced => exact nomatch hbusy
                  | done | faulted | missing => rfl
                rw [Append.step, hstage]
                simp only [hwriter, List.map_cons, List.map_nil, ← hstage]
              rw [stepAt_same hget hstep]
              exact h
      | failed =>
          rw [stepAt_same hget (by rw [Append.step, hstage])]
          exact h

end Pool

/-- **THE HISTORY LOSES NOTHING.**  While no file operation fails and no append loads the
    history between another's load and its rename, the file parses after every step, and
    has every execution whose append has ended, once. -/
theorem history_kept (json : HistoryJson) (f : Files String)
    (initial executions : List TaskExecution) (as : List (Nat × Env)) (hf : f.WellFormed)
    (hload : load json f = .ok initial) (hfaithful : Faithful json (initial ++ executions))
    (hcond : Along (stepAt (Append.step json)) Undisturbed (completions f executions) as) :
    Along (stepAt (Append.step json)) (fun s a => Kept json initial (stepAt (Append.step json) s a))
      (completions f executions) as :=
  along_of_guarded (stepAt (Append.step json)) (inv_step hfaithful)
    (fun s a h hok => (inv_step hfaithful s a h hok).kept) as _
    (inv_completions hf hload executions) hcond

/-! ## Two completions at once -/

def quoted (text : String) : String := "\"" ++ text ++ "\""

/-- An execution as `to_vec_pretty` prints it, for texts that need no escapes. -/
def printExecution (e : TaskExecution) : String :=
  let fields := [("task", quoted e.task), ("started_at", quoted e.startedAt),
    ("finished_at", quoted e.finishedAt), ("exit_code", toString e.exitCode),
    ("duration_ms", toString e.durationMs), ("log_file", quoted e.logFile),
    ("scope", quoted e.scope)]
  "    \x7b\n"
    ++ String.intercalate ",\n" (fields.map (fun field =>
      "      " ++ quoted field.1 ++ ": " ++ field.2))
    ++ "\n    \x7d"

def printHistory (history : List TaskExecution) : String :=
  if history = [] then "\x7b\n  \"executions\": []\n\x7d"
  else
    "\x7b\n  \"executions\": [\n" ++ String.intercalate ",\n" (history.map printExecution)
      ++ "\n  ]\n\x7d"

/-- `serde_json` on the texts of some histories. -/
def jsonOf (known : List (List TaskExecution)) : HistoryJson where
  serialize := fun history => (printHistory history).toUTF8.toList
  parse := fun bytes =>
    match known.find? (fun history => (printHistory history).toUTF8.toList = bytes) with
    | some history => .ok history
    | none => .error "expected value at line 1 column 1"

theorem toListLoop_eq (bytes : ByteArray) (i : Nat) (acc : List UInt8) :
    ByteArray.toList.loop bytes i acc = acc.reverse ++ bytes.data.toList.drop i := by
  induction hleft : bytes.size - i generalizing i acc with
  | zero =>
      have hend : bytes.data.toList.length ≤ i := Nat.sub_eq_zero_iff_le.mp hleft
      have hsize : ¬ i < bytes.size := Nat.not_lt.mpr hend
      rw [ByteArray.toList.loop, if_neg hsize, List.drop_eq_nil_of_le hend, List.append_nil]
  | succ left ih =>
      have hi : i < bytes.data.toList.length := Nat.lt_of_sub_eq_succ hleft
      have hsize : i < bytes.size := hi
      have hget : bytes.get! i = bytes.data.toList[i] := by
        rw [Array.getElem_toList]
        exact getElem!_pos bytes.data i hsize
      rw [ByteArray.toList.loop, if_pos hsize, ih (i + 1) _ (by omega), List.reverse_cons,
        List.append_assoc, List.singleton_append, hget, ← List.drop_eq_getElem_cons hi]

theorem toList_eq_data (bytes : ByteArray) : bytes.toList = bytes.data.toList :=
  toListLoop_eq bytes 0 []

/-- The same by the bytes as they lie, which is quick to compute. -/
theorem jsonOf_eq (known : List (List TaskExecution)) :
    jsonOf known =
      { serialize := fun history => (printHistory history).toUTF8.data.toList
        parse := fun bytes =>
          match known.find? (fun history => (printHistory history).toUTF8.data.toList = bytes) with
          | some history => .ok history
          | none => .error "expected value at line 1 column 1" } := by
  simp only [jsonOf, toList_eq_data]

def executionOf (task : String) : TaskExecution :=
  taskExecution task .adHoc "2025-01-01T00:00:00Z" "2025-01-01T00:00:05Z" ⟨0, 5000⟩

/-- A step that no failure disturbs, and in which a write takes everything. -/
def calm : Env := noFault 1000

theorem jsonOf_ok {known : List (List TaskExecution)} {history : List TaskExecution}
    (h : known.find? (fun other => (printHistory other).toUTF8.data.toList
      = (printHistory history).toUTF8.data.toList) = some history) :
    (jsonOf known).parse ((jsonOf known).serialize history) = .ok history := by
  simp only [jsonOf_eq, h]

/-- The histories of these two executions. -/
def buildAndSeed : List (List TaskExecution) :=
  (List.sublists' [executionOf "build", executionOf "seed"]).flatMap List.permutations'

/-- One completion and then the other, each to its end. -/
def inTurn : List (Nat × Env) := List.replicate 5 (0, calm) ++ List.replicate 6 (1, calm)

/-- The history has both. -/
theorem history_kept_two :
    (load (jsonOf buildAndSeed) (run (stepAt (Append.step (jsonOf buildAndSeed)))
        (completions emptyDir [executionOf "build", executionOf "seed"]) inTurn).1).toOption
        = some [executionOf "build", executionOf "seed"]
      ∧ Along (stepAt (Append.step (jsonOf buildAndSeed)))
          (fun s a => Kept (jsonOf buildAndSeed) []
            (stepAt (Append.step (jsonOf buildAndSeed)) s a))
          (completions emptyDir [executionOf "build", executionOf "seed"]) inTurn := by
  refine ⟨?_, history_kept _ emptyDir [] [executionOf "build", executionOf "seed"] _
    emptyDir_wellFormed rfl ?_ ?_⟩
  · rw [jsonOf_eq]
    decide +kernel
  · rintro history ⟨l, hperm, hsub⟩
    have hknown : history ∈ buildAndSeed :=
      List.mem_flatMap.mpr ⟨l, List.mem_sublists'.mpr hsub, List.mem_permutations'.mpr hperm.symm⟩
    have hall : ∀ history ∈ buildAndSeed, buildAndSeed.find? (fun other =>
        (printHistory other).toUTF8.data.toList = (printHistory history).toUTF8.data.toList)
          = some history := by
      decide +kernel
    exact jsonOf_ok (hall history hknown)
  · rw [jsonOf_eq]
    decide +kernel

/-- Both load the history, then both write it. -/
def bothLoad : List (Nat × Env) :=
  [(0, calm), (1, calm), (0, calm), (0, calm), (0, calm), (0, calm), (1, calm), (1, calm),
    (1, calm)]

def lastRename : Nat × Env := (1, calm)

/-- **ONE OF TWO.**  Both appends end without an error, and the history has one entry. -/
theorem second_overwrites :
    ¬ Along (stepAt (Append.step (jsonOf [[executionOf "build"], [executionOf "seed"]])))
      (fun s a => Kept (jsonOf [[executionOf "build"], [executionOf "seed"]]) []
        (stepAt (Append.step (jsonOf [[executionOf "build"], [executionOf "seed"]])) s a))
      (completions emptyDir [executionOf "build", executionOf "seed"])
      (bothLoad ++ [lastRename]) := by
  intro halong
  rw [along_append] at halong
  obtain ⟨-, ⟨history, hload, hperm⟩, -⟩ := halong
  have hafter : (load (jsonOf [[executionOf "build"], [executionOf "seed"]])
      (stepAt (Append.step (jsonOf [[executionOf "build"], [executionOf "seed"]]))
        (run (stepAt (Append.step (jsonOf [[executionOf "build"], [executionOf "seed"]])))
          (completions emptyDir [executionOf "build", executionOf "seed"]) bothLoad)
        lastRename).1).toOption = some [executionOf "seed"] := by
    rw [jsonOf_eq]
    decide +kernel
  have hended : ended (stepAt (Append.step (jsonOf [[executionOf "build"], [executionOf "seed"]]))
      (run (stepAt (Append.step (jsonOf [[executionOf "build"], [executionOf "seed"]])))
        (completions emptyDir [executionOf "build", executionOf "seed"]) bothLoad)
      lastRename).2 = [executionOf "build", executionOf "seed"] := by
    rw [jsonOf_eq]
    decide +kernel
  rw [hload] at hafter
  rw [hended, Option.some.inj hafter] at hperm
  exact absurd hperm.length_eq (by decide)

end DevstackTaskHistory
