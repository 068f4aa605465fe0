import Mathlib.Algebra.Order.BigOperators.Group.List
import Mathlib.Algebra.Order.Ring.Nat
import Devstack.Config
import Devstack.Lib.Interleaving

/-! # Task starts — one store, any number of requests

    `start_task` and `execute_detached_task` of `src/app/commands/tasks.rs`, over the
    `TaskStore` of `src/stores/tasks.rs`.  A request selects its run, asks the store for
    a running execution of the task in that scope, and adds its own; the store is locked
    for the question and for the answer, but not between them.

    A start is overtaken if an execution of its task and scope was added after its
    question and still runs when it adds its own.

    * `ends_step`: an execution ends once, whatever overlaps;
    * `one_running_iff`: at most one runs in a scope exactly if no start is overtaken. -/

namespace DevstackTaskStarts

open DevstackModel DevstackConfig DevstackMachine DevstackInterleaving

-- ── stores/tasks.rs ───────────────────────────────────────────────────────────

inductive TaskExecutionState where
  | running | completed | failed
  deriving DecidableEq

structure DetachedTaskExecution where
  executionId : String
  task : String
  projectDir : String
  runId : Option String
  state : TaskExecutionState
  startedAt : String
  finishedAt : Option String
  exitCode : Option Int
  durationMs : Option Nat
  deriving DecidableEq

/-- `mark_completed`. -/
def markCompleted (exitCode : Int) (now : String) (elapsedMs : Nat)
    (task : DetachedTaskExecution) : DetachedTaskExecution :=
  { task with
    state := if exitCode = 0 then .completed else .failed
    exitCode := some exitCode
    finishedAt := some now
    durationMs := some elapsedMs }

/-- `mark_failed`. -/
def markFailed (now : String) (elapsedMs : Nat) (task : DetachedTaskExecution) :
    DetachedTaskExecution :=
  { task with state := .failed, finishedAt := some now, durationMs := some elapsedMs }

abbrev Store := BTreeMap DetachedTaskExecution

/-- `add_task`. -/
def addTask (task : DetachedTaskExecution) (store : Store) : Except String Unit × Store :=
  if task.executionId ∈ store then
    (.error s!"task execution {task.executionId} already exists", store)
  else (.ok (), store.insert task.executionId task)

/-- What `update_task_state` makes of the execution. -/
def finished (exitCode : Option Int) (now : String) (elapsedMs : Nat)
    (task : DetachedTaskExecution) : DetachedTaskExecution :=
  match exitCode with
  | some code => markCompleted code now elapsedMs task
  | none => markFailed now elapsedMs task

/-- `update_task_state`. -/
def updateTaskState (executionId : String) (exitCode : Option Int) (now : String)
    (elapsedMs : Nat) (store : Store) : Except String DetachedTaskExecution × Store :=
  match store[executionId]? with
  | none => (.error s!"task execution {executionId} not found", store)
  | some task =>
      let task := finished exitCode now elapsedMs task
      (.ok task, store.insert executionId task)

section Scope

variable (canonicalize : String → Option String)

/-- `same_project_dir`; `canonicalize` is what a path resolves to, if it does. -/
def sameProjectDir (a b : String) : Bool := canonicalize a == canonicalize b

/-- The scopes of two executions are the same run, or the same project without a run. -/
def sameScope (runId : Option String) (projectDir : String) (runId' : Option String)
    (projectDir' : String) : Bool :=
  match runId, runId' with
  | some existing, some candidate => existing == candidate
  | none, none => sameProjectDir canonicalize projectDir projectDir'
  | _, _ => false

/-- `has_running_task`. -/
def hasRunningTask (store : Store) (taskName : String) (runId : Option String)
    (projectDir : String) : Bool :=
  store.toList.any (fun entry =>
    decide (entry.2.state = .running) && decide (entry.2.task = taskName)
      && sameScope canonicalize entry.2.runId entry.2.projectDir runId projectDir)

end Scope

-- ── commands/tasks.rs ─────────────────────────────────────────────────────────

structure StartTaskRequest where
  projectDir : String
  task : String
  file : Option String
  args : List String

structure StartTaskResponse where
  executionId : String
  task : String
  runId : Option String

/-- The store, the replies, and, for the statements, every end of an execution. -/
structure World where
  store : Store
  replies : List (Except String StartTaskResponse)
  endings : List (String × TaskExecutionState)

/-- Where a request stands, or the execution it became.  `seen` is kept for the
    statements: the executions that the store had when it was asked. -/
inductive Task where
  | requested (request : StartTaskRequest)
  | selecting (request : StartTaskRequest)
  | checking (execution : DetachedTaskExecution)
  | adding (seen : List String) (execution : DetachedTaskExecution)
  | executing (execution : DetachedTaskExecution)

/-- What the outside answers at a step: the tasks of the configuration, the active run of
    the project, the id that is drawn, the result of `run_task`, the clock. -/
structure Env where
  loaded : Except String (Option (BTreeMap TaskConfig))
  activeRun : Except String (Option String)
  executionId : String
  exitCode : Option Int
  now : String
  elapsedMs : Nat

section Step

variable (canonicalize : String → Option String)

/-- `start_task` from one lock to the next, and the end of `execute_detached_task`. -/
def taskStep (env : Env) (w : World) : Task → World × List Task
  | .requested request =>
      match env.loaded with
      | .error err => ({ w with replies := w.replies ++ [.error err] }, [])
      | .ok tasks =>
          match tasks.bind (·[request.task]?) with
          | none =>
              ({ w with replies := w.replies ++ [.error s!"unknown task '{request.task}'"] }, [])
          | some _ => (w, [.selecting request])
  | .selecting request =>
      match env.activeRun with
      | .error err => ({ w with replies := w.replies ++ [.error err] }, [])
      | .ok runId =>
          (w, [.checking
            { executionId := env.executionId
              task := request.task
              projectDir := request.projectDir
              runId
              state := .running
              startedAt := env.now
              finishedAt := none
              exitCode := none
              durationMs := none }])
  | .checking execution =>
      if hasRunningTask canonicalize w.store execution.task execution.runId execution.projectDir then
        ({ w with
            replies := w.replies ++ [.error s!"task '{execution.task}' is already running"] }, [])
      else (w, [.adding w.store.keys execution])
  | .adding _ execution =>
      match addTask execution w.store with
      | (.error err, store) => ({ w with store, replies := w.replies ++ [.error err] }, [])
      | (.ok _, store) =>
          ({ w with
              store
              replies := w.replies
                ++ [.ok ⟨execution.executionId, execution.task, execution.runId⟩] },
            [.executing execution])
  | .executing execution =>
      match updateTaskState execution.executionId env.exitCode env.now env.elapsedMs w.store with
      | (.error _, store) => ({ w with store }, [])
      | (.ok updated, store) =>
          ({ w with store, endings := w.endings ++ [(execution.executionId, updated.state)] }, [])

abbrev System := World × List Task

/-- Requests that have arrived, or will; nothing was started yet. -/
def requests (requests : List StartTaskRequest) : System :=
  (⟨∅, [], []⟩, requests.map .requested)

/-! ## One running execution, one end -/

/-- Two executions of one task in one scope. -/
def contends (e e' : DetachedTaskExecution) : Bool :=
  decide (e.task = e'.task) && sameScope canonicalize e.runId e.projectDir e'.runId e'.projectDir

/-- At most one execution of a task runs in a scope. -/
def Single (store : Store) : Prop :=
  ∀ (id id' : String) (e e' : DetachedTaskExecution), store[id]? = some e → store[id']? = some e' →
    e.state = .running → e'.state = .running → contends canonicalize e e' = true → id = id'

/-- The ends that an execution came to. -/
def endingsOf (id : String) (w : World) : List TaskExecutionState :=
  (w.endings.filter (fun ending => ending.1 = id)).map Prod.snd

def executingOf (id : String) : Task → Nat
  | .executing execution => if execution.executionId = id then 1 else 0
  | _ => 0

/-- The tasks that are yet to end an execution. -/
def executing (id : String) (tasks : List Task) : Nat := (tasks.map (executingOf id)).sum

/-- A started execution runs, and one task is yet to end it; or it is in the one terminal
    state that it ended in, and no task is left that could end it again. -/
def EndsOnce (s : System) : Prop :=
  ∀ (id : String) (e : DetachedTaskExecution), s.1.store[id]? = some e →
    e.state = .running ∧ endingsOf id s.1 = [] ∧ executing id s.2 = 1
      ∨ e.state ≠ .running ∧ endingsOf id s.1 = [e.state] ∧ executing id s.2 = 0

def step (s : System) (a : Nat × Env) : System := stepAt (taskStep canonicalize) s a

/-- What the claim asks of one step. -/
def StepSingle (s : System) (a : Nat × Env) : Prop :=
  Single canonicalize (step canonicalize s a).1.store ∧ EndsOnce (step canonicalize s a)

/-- The condition on a step: where a start adds its execution, every execution of its
    task and scope that was added since it asked has ended. -/
def NotOvertaken (s : System) (a : Nat × Env) : Prop :=
  ∀ seen execution, s.2[a.1]? = some (.adding seen execution) →
    execution.executionId ∉ s.1.store →
    ∀ (id : String) (e : DetachedTaskExecution), s.1.store[id]? = some e → id ∉ seen →
      contends canonicalize e execution = true → e.state ≠ .running

end Step

/-! ## What one step does -/

theorem finished_ended (exitCode : Option Int) (now : String) (elapsedMs : Nat)
    (e : DetachedTaskExecution) : (finished exitCode now elapsedMs e).state ≠ .running := by
  cases exitCode with
  | none => exact fun h => nomatch h
  | some code =>
      rw [finished, markCompleted]
      dsimp only
      split <;> exact fun h => nomatch h

section Effects

variable {canonicalize : String → Option String}

/-- An execution contends as it did before it ended. -/
theorem contends_finished (exitCode : Option Int) (now : String) (elapsedMs : Nat)
    (e e' : DetachedTaskExecution) :
    contends canonicalize (finished exitCode now elapsedMs e) e' = contends canonicalize e e' := by
  cases exitCode <;> rfl

theorem sameScope_comm (runId runId' : Option String) (dir dir' : String) :
    sameScope canonicalize runId dir runId' dir' = sameScope canonicalize runId' dir' runId dir := by
  cases runId <;> cases runId' <;> simp [sameScope, sameProjectDir, Bool.beq_comm]

theorem contends_comm (e e' : DetachedTaskExecution) :
    contends canonicalize e e' = contends canonicalize e' e := by
  rw [contends, contends, sameScope_comm, decide_eq_decide.mpr (eq_comm (a := e.task))]

/-- The store says no: nothing that contends with the execution runs. -/
theorem hasRunningTask_false {store : Store} {execution : DetachedTaskExecution}
    (h : hasRunningTask canonicalize store execution.task execution.runId execution.projectDir
      = false) {id : String} {e : DetachedTaskExecution} (hget : store[id]? = some e)
    (hcontends : contends canonicalize e execution = true) : e.state ≠ .running := by
  intro hrunning
  have hentry := List.any_eq_false.mp h (id, e)
    (Std.ExtTreeMap.mem_toList_iff_getElem?_eq_some.mpr hget)
  rw [contends, Bool.and_eq_true] at hcontends
  rw [decide_eq_true hrunning, hcontends.1, hcontends.2] at hentry
  exact hentry rfl

variable (canonicalize) in
/-- A step that neither adds an execution nor ends one. -/
structure Quiet (w : World) (t : Task) (next : World × List Task) : Prop where
  store : next.1.store = w.store
  endings : next.1.endings = w.endings
  executing : ∀ id, executing id next.2 = executingOf id t
  checking : ∀ execution, .checking execution ∈ next.2 → execution.state = .running
  adding : ∀ seen execution, .adding seen execution ∈ next.2 →
    t = .checking execution ∧ seen = w.store.keys
      ∧ hasRunningTask canonicalize w.store execution.task execution.runId execution.projectDir
        = false
  taken : ∀ seen execution, t = .adding seen execution → execution.executionId ∈ w.store

theorem quiet_error {w : World} {t : Task} (err : Except String StartTaskResponse)
    (hexecuting : ∀ id, executingOf id t = 0)
    (htaken : ∀ seen execution, t = .adding seen execution → execution.executionId ∈ w.store) :
    Quiet canonicalize w t ({ w with replies := w.replies ++ [err] }, []) where
  store := rfl
  endings := rfl
  executing := fun id => (hexecuting id).symm
  checking := fun _ h => nomatch h
  adding := fun _ _ h => nomatch h
  taken := htaken

/-- A step adds an execution, or ends one, or does neither. -/
theorem taskStep_cases (env : Env) (w : World) (t : Task)
    (hstored : ∀ execution, t = .executing execution → execution.executionId ∈ w.store) :
    Quiet canonicalize w t (taskStep canonicalize env w t)
      ∨ (∃ seen execution replies, t = .adding seen execution ∧ execution.executionId ∉ w.store
        ∧ taskStep canonicalize env w t
          = (⟨w.store.insert execution.executionId execution, replies, w.endings⟩,
              [.executing execution]))
      ∨ (∃ execution e updated, t = .executing execution
        ∧ w.store[execution.executionId]? = some e
        ∧ updated = finished env.exitCode env.now env.elapsedMs e
        ∧ taskStep canonicalize env w t
          = (⟨w.store.insert execution.executionId updated, w.replies,
              w.endings ++ [(execution.executionId, updated.state)]⟩, [])) := by
  cases t with
  | requested request =>
      refine Or.inl ?_
      rw [taskStep]
      cases env.loaded with
      | error err => exact quiet_error _ (fun _ => rfl) (fun _ _ h => nomatch h)
      | ok tasks =>
          dsimp only
          cases tasks.bind (·[request.task]?) with
          | none => exact quiet_error _ (fun _ => rfl) (fun _ _ h => nomatch h)
          | some _ =>
              exact ⟨rfl, rfl, fun _ => rfl, fun _ h => by simp at h, fun _ _ h => by simp at h,
                fun _ _ h => nomatch h⟩
  | selecting request =>
      refine Or.inl ?_
      rw [taskStep]
      cases env.activeRun with
      | error err => exact quiet_error _ (fun _ => rfl) (fun _ _ h => nomatch h)
      | ok runId =>
          refine ⟨rfl, rfl, fun _ => rfl, fun execution h => ?_, fun _ _ h => by simp at h,
            fun _ _ h => nomatch h⟩
          rw [List.mem_singleton] at h
          rw [Task.checking.inj h]
  | checking execution =>
      refine Or.inl ?_
      rw [taskStep]
      split
      · exact quiet_error _ (fun _ => rfl) (fun _ _ h => nomatch h)
      · next hnone =>
          refine ⟨rfl, rfl, fun _ => rfl, fun _ h => by simp at h, fun seen execution' h => ?_,
            fun _ _ h => nomatch h⟩
          rw [List.mem_singleton] at h
          obtain ⟨rfl, rfl⟩ := Task.adding.inj h
          exact ⟨rfl, rfl, Bool.eq_false_iff.mpr hnone⟩
  | adding seen execution =>
      by_cases hmem : execution.executionId ∈ w.store
      · refine Or.inl ?_
        rw [taskStep, addTask, if_pos hmem]
        refine quiet_error _ (fun _ => rfl) (fun _ _ h => ?_)
        obtain ⟨rfl, rfl⟩ := Task.adding.inj h
        exact hmem
      · refine Or.inr (Or.inl ⟨seen, execution,
          w.replies ++ [.ok ⟨execution.executionId, execution.task, execution.runId⟩], rfl, hmem, ?_⟩)
        rw [taskStep, addTask, if_neg hmem]
  | executing execution =>
      obtain ⟨e, hget⟩ := Option.isSome_iff_exists.mp
        (Std.ExtTreeMap.mem_iff_isSome_getElem?.mp (hstored execution rfl))
      refine Or.inr (Or.inr ⟨execution, e, _, rfl, hget, rfl, ?_⟩)
      rw [taskStep, updateTaskState, hget]

/-! ## The invariant -/

variable (canonicalize) in
/-- Of the executions a start has seen, none that contends with its own runs. -/
def SeenEnded (store : Store) (seen : List String) (execution : DetachedTaskExecution) : Prop :=
  ∀ id ∈ seen, ∃ e, store[id]? = some e
    ∧ (contends canonicalize e execution = true → e.state ≠ .running)

/-- An execution that is not stored has not ended, and is none that a task ends. -/
def Unstarted (s : System) : Prop :=
  ∀ id, id ∉ s.1.store → endingsOf id s.1 = [] ∧ executing id s.2 = 0

/-- Every task that ends an execution is the one of a stored execution. -/
theorem executing_stored {s : System} (hunstarted : Unstarted s) {i : Nat}
    {execution : DetachedTaskExecution} (h : s.2[i]? = some (.executing execution)) :
    execution.executionId ∈ s.1.store := by
  by_contra hnot
  have hzero := (hunstarted _ hnot).2
  rw [executing] at hzero
  have hle : executingOf execution.executionId (.executing execution)
      ≤ (s.2.map (executingOf execution.executionId)).sum :=
    List.le_sum_of_mem (List.mem_map_of_mem (List.mem_of_getElem? h))
  rw [hzero, executingOf, if_pos rfl] at hle
  exact absurd hle (by decide)

variable (canonicalize) in
/-- What a store keeps of its executions: their task and scope, and that they ended. -/
def Keeps (store store' : Store) : Prop :=
  ∀ (id : String) (e : DetachedTaskExecution), store[id]? = some e → ∃ e', store'[id]? = some e'
    ∧ (∀ execution, contends canonicalize e' execution = contends canonicalize e execution)
    ∧ (e.state ≠ .running → e'.state ≠ .running)

theorem SeenEnded.keeps {store store' : Store} {seen : List String}
    {execution : DetachedTaskExecution}
    (h : SeenEnded canonicalize store seen execution)
    (hkeeps : Keeps canonicalize store store') :
    SeenEnded canonicalize store' seen execution := by
  intro id hid
  obtain ⟨e, hget, hended⟩ := h id hid
  obtain ⟨e', hget', hsame, hstays⟩ := hkeeps id e hget
  refine ⟨e', hget', fun hcontends => ?_⟩
  rw [hsame] at hcontends
  exact hstays (hended hcontends)

theorem keeps_insert_fresh {store : Store} {execution : DetachedTaskExecution}
    (hfresh : execution.executionId ∉ store) :
    Keeps canonicalize store
      (store.insert execution.executionId execution) := by
  intro id e hget
  have hne : ¬ compare execution.executionId id = .eq := by
    intro heq
    obtain rfl := Std.LawfulEqOrd.eq_of_compare heq
    exact hfresh (Std.ExtTreeMap.mem_iff_isSome_getElem?.mpr (by rw [hget]; rfl))
  refine ⟨e, ?_, fun _ => rfl, fun h => h⟩
  rw [Std.ExtTreeMap.getElem?_insert, if_neg hne, hget]

theorem keeps_insert_finished {store : Store} {id : String} {e : DetachedTaskExecution}
    (hget : store[id]? = some e) (exitCode : Option Int) (now : String) (elapsedMs : Nat) :
    Keeps canonicalize store
      (store.insert id (finished exitCode now elapsedMs e)) := by
  intro id' e' hget'
  by_cases heq : compare id id' = .eq
  · obtain rfl := Std.LawfulEqOrd.eq_of_compare heq
    obtain rfl := Option.some.inj (hget.symm.trans hget')
    exact ⟨_, Std.ExtTreeMap.getElem?_insert_self,
      fun _ => contends_finished exitCode now elapsedMs e _,
      fun _ => finished_ended exitCode now elapsedMs e⟩
  · exact ⟨e', by rw [Std.ExtTreeMap.getElem?_insert, if_neg heq, hget'], fun _ => rfl, fun h => h⟩

/-! ## Every execution ends once -/

theorem executing_step {s : System} {a : Nat × Env} {t : Task} (hget : s.2[a.1]? = some t)
    (id : String) :
    executing id (step canonicalize s a).2 + executingOf id t
      = executing id s.2 + executing id (taskStep canonicalize a.2 s.1 t).2 :=
  sum_stepAt (taskStep canonicalize) (executingOf id) hget

theorem world_step {s : System} {a : Nat × Env} {t : Task} (hget : s.2[a.1]? = some t) :
    (step canonicalize s a).1 = (taskStep canonicalize a.2 s.1 t).1 := by
  rw [step, stepAt_some (taskStep canonicalize) hget]

theorem executing_single (id : String) (execution : DetachedTaskExecution) :
    executing id [.executing execution] = if execution.executionId = id then 1 else 0 := by
  simp [executing, executingOf]

theorem compare_ne {a b : String} (h : ¬ compare a b = .eq) : a ≠ b :=
  fun heq => h (by rw [heq]; exact Std.ReflCmp.compare_self)

/-- What the ends of the executions depend on. -/
theorem ends_congr {s s' : System} (hstore : s'.1.store = s.1.store)
    (hendings : s'.1.endings = s.1.endings) (hexecuting : ∀ id, executing id s'.2 = executing id s.2)
    (hends : EndsOnce s) (hunstarted : Unstarted s) : EndsOnce s' ∧ Unstarted s' := by
  refine ⟨fun id e he => ?_, fun id hid => ?_⟩
  · rw [hexecuting, endingsOf, hendings]
    rw [hstore] at he
    exact hends id e he
  · rw [hexecuting, endingsOf, hendings]
    rw [hstore] at hid
    exact hunstarted id hid

/-- A new execution runs, and one task is to end it. -/
theorem ends_added {s s' : System} {execution : DetachedTaskExecution}
    (hrunning : execution.state = .running) (hfresh : execution.executionId ∉ s.1.store)
    (hstore : s'.1.store = s.1.store.insert execution.executionId execution)
    (hendings : s'.1.endings = s.1.endings)
    (hexecuting : ∀ id, executing id s'.2
      = executing id s.2 + if execution.executionId = id then 1 else 0)
    (hends : EndsOnce s) (hunstarted : Unstarted s) : EndsOnce s' ∧ Unstarted s' := by
  refine ⟨fun id e he => ?_, fun id hid => ?_⟩
  · rw [hstore, Std.ExtTreeMap.getElem?_insert] at he
    rw [hexecuting, endingsOf, hendings, ← endingsOf]
    split at he
    · next heq =>
        obtain rfl := Std.LawfulEqOrd.eq_of_compare heq
        obtain rfl := Option.some.inj he
        obtain ⟨hnone, hzero⟩ := hunstarted _ hfresh
        exact Or.inl ⟨hrunning, hnone, by rw [hzero, if_pos rfl]⟩
    · next hne =>
        rw [if_neg (compare_ne hne)]
        exact hends id e he
  · rw [hstore, Std.ExtTreeMap.mem_insert, not_or] at hid
    rw [hexecuting, endingsOf, hendings, ← endingsOf, if_neg (compare_ne hid.1)]
    exact hunstarted id hid.2

/-- An execution that runs ends, with the task that ended it. -/
theorem ends_finished {s s' : System} {id₀ : String} {e updated : DetachedTaskExecution}
    (hcurrent : s.1.store[id₀]? = some e) (hended : updated.state ≠ .running)
    (hstore : s'.1.store = s.1.store.insert id₀ updated)
    (hendings : s'.1.endings = s.1.endings ++ [(id₀, updated.state)])
    (hexecuting : ∀ id, executing id s'.2 + (if id₀ = id then 1 else 0) = executing id s.2)
    (hends : EndsOnce s) (hunstarted : Unstarted s) : EndsOnce s' ∧ Unstarted s' := by
  have hendings' : ∀ id, endingsOf id s'.1
      = endingsOf id s.1 ++ if id₀ = id then [updated.state] else [] := by
    intro id
    rw [endingsOf, hendings, endingsOf, List.filter_append, List.map_append]
    by_cases h : id₀ = id <;> simp [h]
  refine ⟨fun id e' he => ?_, fun id hid => ?_⟩
  · rw [hstore, Std.ExtTreeMap.getElem?_insert] at he
    rw [hendings']
    have hexec := hexecuting id
    split at he
    · next heq =>
        obtain rfl := Std.LawfulEqOrd.eq_of_compare heq
        obtain rfl := Option.some.inj he
        rw [if_pos rfl] at hexec ⊢
        obtain ⟨-, hnone, hone⟩ | ⟨-, -, hzero⟩ := hends _ e hcurrent
        · exact Or.inr ⟨hended, by rw [hnone]; rfl, by omega⟩
        · omega
    · next hne =>
        rw [if_neg (compare_ne hne)] at hexec ⊢
        rw [List.append_nil, show executing id s'.2 = executing id s.2 from hexec]
        exact hends id e' he
  · rw [hstore, Std.ExtTreeMap.mem_insert, not_or] at hid
    obtain ⟨hnone, hzero⟩ := hunstarted id hid.2
    have hexec := hexecuting id
    rw [hendings', if_neg (compare_ne hid.1), List.append_nil]
    exact ⟨hnone, by omega⟩

variable (canonicalize) in
/-- The invariant of a state, but for the executions that run at once. -/
structure Started (s : System) : Prop where
  ends : EndsOnce s
  unstarted : Unstarted s
  checking : ∀ execution, .checking execution ∈ s.2 → execution.state = .running
  adding : ∀ seen execution, .adding seen execution ∈ s.2 →
    execution.state = .running ∧ SeenEnded canonicalize s.1.store seen execution

theorem started_requests (reqs : List StartTaskRequest) :
    Started canonicalize (requests reqs) where
  ends := fun id e h => by simp [requests] at h
  unstarted := fun id _ => by
    refine ⟨rfl, ?_⟩
    rw [executing, requests, List.map_map]
    exact List.sum_eq_zero fun n hn => by
      obtain ⟨request, -, rfl⟩ := List.mem_map.mp hn
      rfl
  checking := fun execution h => by simp [requests] at h
  adding := fun seen execution h => by simp [requests] at h

/-- A state and what a step of one of its tasks makes of it, case by case. -/
theorem step_cases {s : System} {a : Nat × Env} {t : Task} (hget : s.2[a.1]? = some t)
    (hunstarted : Unstarted s) :
    Quiet canonicalize s.1 t (taskStep canonicalize a.2 s.1 t)
      ∨ (∃ seen execution replies, t = .adding seen execution ∧ execution.executionId ∉ s.1.store
        ∧ taskStep canonicalize a.2 s.1 t
          = (⟨s.1.store.insert execution.executionId execution, replies, s.1.endings⟩,
              [.executing execution]))
      ∨ (∃ execution e updated, t = .executing execution
        ∧ s.1.store[execution.executionId]? = some e
        ∧ updated = finished a.2.exitCode a.2.now a.2.elapsedMs e
        ∧ taskStep canonicalize a.2 s.1 t
          = (⟨s.1.store.insert execution.executionId updated, s.1.replies,
              s.1.endings ++ [(execution.executionId, updated.state)]⟩, [])) :=
  taskStep_cases a.2 s.1 t fun _ heq => executing_stored hunstarted (heq ▸ hget)

/-- **ONE END.**  Whatever overlaps, a started execution runs until the one task that is
    to end it does, and stays in the state it ended in. -/
theorem ends_step {s : System} {a : Nat × Env} {t : Task} (hget : s.2[a.1]? = some t)
    (h : Started canonicalize s) :
    EndsOnce (step canonicalize s a) ∧ Unstarted (step canonicalize s a) := by
  have hsum := @executing_step canonicalize _ _ _ hget
  have hworld := @world_step canonicalize _ _ _ hget
  obtain hquiet | ⟨seen, execution, replies, rfl, hfresh, hstep⟩
    | ⟨execution, e, updated, rfl, hcurrent, hupdated, hstep⟩ := step_cases hget h.unstarted
  · refine ends_congr (by rw [hworld, hquiet.store]) (by rw [hworld, hquiet.endings]) (fun id => ?_)
      h.ends h.unstarted
    have hid := hsum id
    rw [hquiet.executing id] at hid
    omega
  · rw [hstep] at hsum hworld
    refine ends_added (h.adding seen execution (List.mem_of_getElem? hget)).1 hfresh
      (by rw [hworld]) (by rw [hworld]) (fun id => ?_) h.ends h.unstarted
    have hid := hsum id
    rw [executing_single] at hid
    exact hid
  · rw [hstep] at hsum hworld
    exact ends_finished hcurrent (hupdated ▸ finished_ended _ _ _ e) (by rw [hworld])
      (by rw [hworld]) (fun id => hsum id) h.ends h.unstarted

theorem keeps_step {s : System} {a : Nat × Env} {t : Task} (hget : s.2[a.1]? = some t)
    (hunstarted : Unstarted s) :
    Keeps canonicalize s.1.store (step canonicalize s a).1.store := by
  rw [world_step hget]
  obtain hquiet | ⟨seen, execution, replies, rfl, hfresh, hstep⟩
    | ⟨execution, e, updated, rfl, hcurrent, hupdated, hstep⟩ :=
      @step_cases canonicalize _ _ _ hget hunstarted
  · rw [hquiet.store]
    exact fun id e he => ⟨e, he, fun _ => rfl, fun hended => hended⟩
  · rw [hstep]
    exact keeps_insert_fresh hfresh
  · rw [hstep, hupdated]
    exact keeps_insert_finished hcurrent _ _ _

/-- A start that was told that nothing runs has seen that all have ended. -/
theorem seenEnded_keys {store : Store} {execution : DetachedTaskExecution}
    (h : hasRunningTask canonicalize store execution.task execution.runId execution.projectDir
      = false) : SeenEnded canonicalize store store.keys execution := by
  intro id hid
  obtain ⟨e, he⟩ := Option.isSome_iff_exists.mp
    (Std.ExtTreeMap.mem_iff_isSome_getElem?.mp (Std.ExtTreeMap.mem_keys.mp hid))
  exact ⟨e, he, hasRunningTask_false h he⟩

theorem started_step (s : System) (a : Nat × Env) (h : Started canonicalize s) :
    Started canonicalize (step canonicalize s a) := by
  cases hget : s.2[a.1]? with
  | none =>
      have hstay : step canonicalize s a = s := by
        rw [step, stepAt_none (taskStep canonicalize) hget]
      rw [hstay]
      exact h
  | some t =>
      obtain ⟨hends, hunstarted⟩ := ends_step hget h
      have hkeeps := @keeps_step canonicalize _ _ _ hget h.unstarted
      have hmem : ∀ t', t' ∈ (step canonicalize s a).2 →
          t' ∈ (taskStep canonicalize a.2 s.1 t).2 ∨ t' ∈ s.2 :=
        fun t' => mem_stepAt (taskStep canonicalize) hget
      have hcases := @step_cases canonicalize _ _ _ hget h.unstarted
      refine ⟨hends, hunstarted, fun execution hexecution => ?_, fun seen execution hexecution => ?_⟩
      · obtain hnew | hold := hmem _ hexecution
        · obtain hquiet | ⟨_, _, _, -, -, hstep⟩ | ⟨_, _, _, -, -, -, hstep⟩ := hcases
          · exact hquiet.checking execution hnew
          · rw [hstep] at hnew
            simp at hnew
          · rw [hstep] at hnew
            exact nomatch hnew
        · exact h.checking execution hold
      · obtain hnew | hold := hmem _ hexecution
        · obtain hquiet | ⟨_, _, _, -, -, hstep⟩ | ⟨_, _, _, -, -, -, hstep⟩ := hcases
          · obtain ⟨rfl, rfl, hnone⟩ := hquiet.adding seen execution hnew
            exact ⟨h.checking execution (List.mem_of_getElem? hget),
              (seenEnded_keys hnone).keeps hkeeps⟩
          · rw [hstep] at hnew
            simp at hnew
          · rw [hstep] at hnew
            exact nomatch hnew
        · obtain ⟨hrunning, hseen⟩ := h.adding seen execution hold
          exact ⟨hrunning, hseen.keeps hkeeps⟩

/-! ## At most one that runs -/

/-- What ends leaves at most one running. -/
theorem single_finished {store : Store} {id₀ : String} {updated : DetachedTaskExecution}
    (hended : updated.state ≠ .running) (hsingle : Single canonicalize store) :
    Single canonicalize (store.insert id₀ updated) := by
  intro id id' e e' he he' hrunning hrunning' hcontends
  rw [Std.ExtTreeMap.getElem?_insert] at he he'
  split at he
  · exact absurd (Option.some.inj he ▸ hrunning) hended
  · split at he'
    · exact absurd (Option.some.inj he' ▸ hrunning') hended
    · exact hsingle id id' e e' he he' hrunning hrunning' hcontends

/-- A new execution runs alone in its scope exactly if no other of the scope runs. -/
theorem single_added_iff {store : Store} {execution : DetachedTaskExecution}
    (hrunning : execution.state = .running) (hfresh : execution.executionId ∉ store)
    (hsingle : Single canonicalize store) :
    Single canonicalize (store.insert execution.executionId execution)
      ↔ ∀ (id : String) (e : DetachedTaskExecution), store[id]? = some e →
          contends canonicalize e execution = true → e.state ≠ .running := by
  have hother : ∀ (id : String) (e : DetachedTaskExecution), store[id]? = some e →
      ¬ compare execution.executionId id = .eq := by
    intro id e he heq
    obtain rfl := Std.LawfulEqOrd.eq_of_compare heq
    exact hfresh (Std.ExtTreeMap.mem_iff_isSome_getElem?.mpr (by rw [he]; rfl))
  constructor
  · intro hinsert id e he hcontends hstate
    have hget : (store.insert execution.executionId execution)[id]? = some e := by
      rw [Std.ExtTreeMap.getElem?_insert, if_neg (hother id e he), he]
    have hid := hinsert id execution.executionId e execution hget
      Std.ExtTreeMap.getElem?_insert_self hstate hrunning hcontends
    exact hother id e he (by rw [hid]; exact Std.ReflCmp.compare_self)
  · intro hnone id id' e e' he he' hstate hstate' hcontends
    rw [Std.ExtTreeMap.getElem?_insert] at he he'
    split at he
    · next heq =>
        split at he'
        · next heq' =>
            exact (Std.LawfulEqOrd.eq_of_compare heq).symm.trans
              (Std.LawfulEqOrd.eq_of_compare heq')
        · rw [contends_comm, ← Option.some.inj he] at hcontends
          exact absurd hstate' (hnone id' e' he' hcontends)
    · split at he'
      · rw [← Option.some.inj he'] at hcontends
        exact absurd hstate (hnone id e he hcontends)
      · exact hsingle id id' e e' he he' hstate hstate' hcontends

/-- The condition says of a start what the store would, had it been asked again. -/
theorem notOvertaken_iff {s : System} {a : Nat × Env} {seen : List String}
    {execution : DetachedTaskExecution} (hget : s.2[a.1]? = some (.adding seen execution))
    (hfresh : execution.executionId ∉ s.1.store)
    (hseen : SeenEnded canonicalize s.1.store seen execution) :
    NotOvertaken canonicalize s a
      ↔ ∀ (id : String) (e : DetachedTaskExecution), s.1.store[id]? = some e →
          contends canonicalize e execution = true → e.state ≠ .running := by
  constructor
  · intro hnot id e he hcontends
    by_cases hid : id ∈ seen
    · obtain ⟨e', he', hended⟩ := hseen id hid
      obtain rfl := Option.some.inj (he.symm.trans he')
      exact hended hcontends
    · exact hnot seen execution hget hfresh id e he hid hcontends
  · intro hnone seen' execution' hget' _ id e he _ hcontends
    obtain ⟨rfl, rfl⟩ := Task.adding.inj (Option.some.inj (hget.symm.trans hget'))
    exact hnone id e he hcontends

theorem stepSingle_iff (s : System) (a : Nat × Env)
    (h : Started canonicalize s ∧ Single canonicalize s.1.store) :
    StepSingle canonicalize s a ↔ NotOvertaken canonicalize s a := by
  obtain ⟨hstarted, hsingle⟩ := h
  have hends := (started_step s a hstarted).ends
  rw [StepSingle, and_iff_left hends]
  cases hget : s.2[a.1]? with
  | none =>
      rw [step, stepAt_none (taskStep canonicalize) hget]
      exact ⟨fun _ seen execution hexecution => (nomatch hget.symm.trans hexecution),
        fun _ => hsingle⟩
  | some t =>
      rw [world_step hget]
      obtain hquiet | ⟨seen, execution, replies, rfl, hfresh, hstep⟩
        | ⟨execution, e, updated, rfl, hcurrent, hupdated, hstep⟩ :=
          @step_cases canonicalize _ _ _ hget hstarted.unstarted
      · rw [hquiet.store]
        refine ⟨fun _ seen execution hexecution hfresh => ?_, fun _ => hsingle⟩
        exact absurd (hquiet.taken seen execution (Option.some.inj (hget.symm.trans hexecution))) hfresh
      · obtain ⟨hrunning, hseen⟩ := hstarted.adding seen execution (List.mem_of_getElem? hget)
        rw [hstep, notOvertaken_iff hget hfresh hseen]
        exact single_added_iff hrunning hfresh hsingle
      · rw [hstep]
        refine ⟨fun _ seen execution' hexecution => ?_, fun _ => ?_⟩
        · exact nomatch hget.symm.trans hexecution
        · exact single_finished (hupdated ▸ finished_ended _ _ _ e) hsingle

end Effects

/-- **ONE RUNNING EXECUTION PER SCOPE**, and one end for each, along a run exactly if none
    of its starts is overtaken. -/
theorem one_running_iff (canonicalize : String → Option String) (reqs : List StartTaskRequest)
    (as : List (Nat × Env)) :
    Along (step canonicalize) (StepSingle canonicalize) (requests reqs) as
      ↔ Along (step canonicalize) (NotOvertaken canonicalize) (requests reqs) as := by
  refine along_congr (step canonicalize) stepSingle_iff
    (fun s a h hsingle => ⟨started_step s a h.1, hsingle.1⟩) as (requests reqs)
    ⟨started_requests reqs, fun id id' e e' he => ?_⟩
  simp [requests] at he

/-! ## Two requests at once -/

def build : StartTaskRequest := ⟨"/app", "build", none, []⟩

def answer (executionId : String) : Env where
  loaded := .ok (some ((∅ : BTreeMap TaskConfig).insert "build" (.command "make")))
  activeRun := .ok none
  executionId := executionId
  exitCode := some 0
  now := "t1"
  elapsedMs := 5

/-- Both requests ask, then both add. -/
def bothAsk : List (Nat × Env) :=
  [(0, answer "task-1"), (0, answer "task-1"), (0, answer "task-1"), (1, answer "task-2"),
    (1, answer "task-2"), (1, answer "task-2"), (0, answer "task-1")]

def secondAdds : Nat × Env := (1, answer "task-2")

/-- **TWO OF ONE TASK.**  Both requests were told that nothing runs. -/
theorem both_running :
    ¬ Along (step some) (StepSingle some) (requests [build, build]) (bothAsk ++ [secondAdds]) := by
  intro halong
  rw [along_append] at halong
  obtain ⟨-, ⟨hsingle, -⟩, -⟩ := halong
  have hstored : ∀ id ∈ ["task-1", "task-2"],
      ((step some (run (step some) (requests [build, build]) bothAsk) secondAdds).1.store[id]?).map
        (fun e => (e.state, e.task, e.runId, e.projectDir)) = some (.running, "build", none, "/app") := by
    decide +kernel
  obtain ⟨e, he, hfields⟩ := Option.map_eq_some_iff.mp (hstored "task-1" List.mem_cons_self)
  obtain ⟨e', he', hfields'⟩ := Option.map_eq_some_iff.mp
    (hstored "task-2" (List.mem_cons_of_mem _ List.mem_cons_self))
  obtain ⟨hstate, hrest⟩ := Prod.mk.inj hfields
  obtain ⟨hstate', hrest'⟩ := Prod.mk.inj hfields'
  obtain ⟨htask, hscope⟩ := Prod.mk.inj hrest
  obtain ⟨htask', hscope'⟩ := Prod.mk.inj hrest'
  obtain ⟨hrun, hdir⟩ := Prod.mk.inj hscope
  obtain ⟨hrun', hdir'⟩ := Prod.mk.inj hscope'
  have hcontends : contends some e e' = true := by
    rw [contends, htask, htask', hrun, hrun', hdir, hdir']
    rfl
  exact absurd (hsingle "task-1" "task-2" e e' he he' hstate hstate' hcontends) (by decide)

end DevstackTaskStarts
