import Devstack.Daemon.Locked

/-! # The world — what the tasks of the daemon share

    The two stores, the manifests on disk and the flags of the handles.  Two
    more fields record what happened, for the statements made about runs of the
    daemon: the unit operations made so far, and for every service the number of
    its launches begun. -/

namespace DevstackWorld

open DevstackModel DevstackStores DevstackHealth DevstackConfig DevstackLaunch DevstackStatus
open DevstackLocked

/-! ## Operations on a global -/

inductive GlobalOp where
  | beginRestart (now : String)
  | markReady
  | markFailed (reason : String)
  | compareHash (hash : String)
  | syncWatcher
  | keepWatcher (fresh : HandleId)

/-- The state and failure of a global's service. -/
def setGlobalService (global : GlobalRecord) (state : ServiceState) (failure : Option String)
    (lifecycle : RunLifecycle) : GlobalRecord :=
  { global with
    state := lifecycle
    service :=
      { global.service with
        runtime := { global.service.runtime with state := state, lastFailure := failure } } }

/-- An operation on the global it is locked for, and the handles it stops. -/
def GlobalOp.apply (global : GlobalRecord) : GlobalOp → GlobalRecord × List HandleId
  | .beginRestart now =>
      let started := setGlobalService global .starting none .starting
      ({ started with service := restartedRecord now started.service }, [])
  | .markReady => (setGlobalService global .ready none .running, [])
  | .markFailed reason => (setGlobalService global .failed (some reason) .degraded, [])
  | .compareHash hash =>
      if hashDiffers hash global.service then
        ({ global with state := .starting, service := compareHashRecord hash global.service }, [])
      else (global, [])
  | .syncWatcher =>
      let synced := watchSyncBegin global.service
      ({ global with service := synced.1 }, synced.2)
  | .keepWatcher fresh =>
      ({ global with service := watchSyncKeep fresh global.service },
        if watchSyncKeeps global.service then [] else [fresh])

/-- The standing an operation leaves. -/
def GlobalOp.leaves (op : GlobalOp) (s : Standing) : Standing :=
  match op with
  | .beginRestart _ => (.starting, none)
  | .markReady => (.ready, none)
  | .markFailed reason => (.failed, some reason)
  | _ => s

theorem GlobalOp.standing_apply (op : GlobalOp) (global : GlobalRecord) :
    standing (op.apply global).1.service = op.leaves (standing global.service) := by
  cases op with
  | beginRestart now => rfl
  | markReady => rfl
  | markFailed reason => rfl
  | compareHash hash =>
      simp only [GlobalOp.apply]
      split
      · simp [standing, GlobalOp.leaves, compareHashRecord_runtime]
      · rfl
  | syncWatcher => simp [GlobalOp.apply, standing, GlobalOp.leaves]
  | keepWatcher fresh => simp [GlobalOp.apply, standing, GlobalOp.leaves]

-- ── persistence ───────────────────────────────────────────────────────────────

/-- The `PersistedService` that `persist_manifest` makes of a record. -/
def persistedService (record : ServiceRecord) : PersistedService where
  port := record.launch.port
  url := record.launch.url
  listenPort := record.launch.listenPort
  captureApi := record.launch.captureApi
  captureApiBodyLimit := record.launch.captureApiBodyLimit
  captureApiIgnore := record.launch.captureApiIgnore
  state := record.runtime.state
  watchHash := some record.launch.watchHash
  lastFailure := record.runtime.lastFailure
  lastStartedAt := record.runtime.lastStartedAt
  watchPaused := record.runtime.watchPaused

/-- The manifest that `persist_manifest` reads off a run. -/
def persistedRun (run : RunRecord) : PersistedRun where
  runId := run.runId
  projectDir := run.projectDir
  configDir := run.configDir
  stack := run.stack
  services := run.services.map (fun _ record => persistedService record)
  env := run.baseEnv
  state := run.state
  createdAt := run.createdAt
  stoppedAt := run.stoppedAt

/-- `persisted_global_from_record`. -/
def persistedGlobal (global : GlobalRecord) : PersistedGlobal where
  key := global.key
  name := global.name
  projectDir := global.projectDir
  configPath := global.configPath
  service := persistedService global.service
  env := global.service.launch.env
  state := global.state
  createdAt := global.createdAt
  stoppedAt := global.stoppedAt

/-! ## The world -/

/-- What a launch is a launch of: a service of a run, or a global. -/
inductive Key where
  | service (run service : String)
  | global (key : String)
  deriving DecidableEq, Repr

inductive UnitAction where
  | start | restart | stop | kill
  deriving DecidableEq, Repr

/-- A call of the process manager. -/
structure UnitOp where
  action : UnitAction
  owner : Key
  unitName : String
  deriving DecidableEq, Repr

structure World where
  runs : BTreeMap RunRecord
  globals : BTreeMap GlobalRecord
  manifests : BTreeMap PersistedRun
  globalManifests : BTreeMap PersistedGlobal
  raised : List HandleId
  paused : List HandleId
  nextHandle : HandleId
  serving : Bool
  unitOps : List UnitOp
  launches : Key → Nat

/-- `with_run_mut` on a run that exists; nothing happens to a run that does not. -/
def World.lock (w : World) (runId : String) (op : RunOp) : World :=
  match w.runs[runId]? with
  | some run =>
      let locked := op.apply run
      { w with runs := w.runs.insert runId locked.1, raised := w.raised ++ locked.2 }
  | none => w

/-- `with_global_mut` on a global that exists. -/
def World.lockGlobal (w : World) (key : String) (op : GlobalOp) : World :=
  match w.globals[key]? with
  | some global =>
      let locked := op.apply global
      { w with globals := w.globals.insert key locked.1, raised := w.raised ++ locked.2 }
  | none => w

/-- `upsert_global`. -/
def World.upsertGlobal (w : World) (global : GlobalRecord) : World :=
  { w with
    globals := w.globals.insert global.key global
    raised := w.raised ++
      match w.globals[global.key]? with
      | some previous => liveHandles previous.service
      | none => [] }

/-- `create_run` on an id that is free. -/
def World.createRun (w : World) (run : RunRecord) : World :=
  { w with runs := w.runs.insert run.runId run }

/-- The stop flag of a handle is raised by its owner. -/
def World.raise (w : World) (handle : HandleId) : World :=
  { w with raised := w.raised ++ [handle] }

/-- `handle.paused.store(value)`. -/
def World.storePaused (w : World) (handle : HandleId) (value : Bool) : World :=
  { w with paused := if value then handle :: w.paused else w.paused.filter (· ≠ handle) }

/-- A handle was made. -/
def World.allocate (w : World) : World := { w with nextHandle := w.nextHandle + 1 }

/-- A call of the process manager was made. -/
def World.unit (w : World) (action : UnitAction) (owner : Key) (unitName : String) : World :=
  { w with unitOps := w.unitOps ++ [⟨action, owner, unitName⟩] }

/-- A launch of `key` begins. -/
def World.beginLaunch (w : World) (key : Key) : World :=
  { w with launches := fun k => if k = key then w.launches k + 1 else w.launches k }

/-- The standing of a service of a run, or of a global. -/
def World.standing (w : World) : Key → Option Standing
  | .service run service => (w.runs[run]?).bind (fun r => standingIn r service)
  | .global key => (w.globals[key]?).map (fun g => DevstackStatus.standing g.service)

section World

variable (w : World)

/-- **A LOCKED STEP ON A RUN** changes the standings of that run's services only,
    as its operation says. -/
theorem standing_lock (runId : String) (op : RunOp) (key : Key) :
    (w.lock runId op).standing key
      = match key with
        | .service run service =>
            if run = runId then
              (w.runs[runId]?).bind (fun r => op.standingAfter r service)
            else w.standing key
        | .global _ => w.standing key := by
  rw [World.lock]
  cases hget : w.runs[runId]? with
  | none =>
      cases key with
      | global key => rfl
      | service run service =>
          by_cases h : run = runId
          · subst h; simp [World.standing, hget]
          · simp [h]
  | some r =>
      cases key with
      | global key => rfl
      | service run service =>
          by_cases h : run = runId
          · subst h; simp [World.standing, RunOp.standing_apply]
          · simp [World.standing, Std.ExtTreeMap.getElem?_insert, h, Ne.symm h]

/-- A locked step on a global changes that global's standing only. -/
theorem standing_lockGlobal (name : String) (op : GlobalOp) (key : Key) :
    (w.lockGlobal name op).standing key
      = if key = .global name then (w.standing key).map op.leaves else w.standing key := by
  rw [World.lockGlobal]
  cases hget : w.globals[name]? with
  | none =>
      by_cases h : key = .global name
      · subst h; simp [World.standing, hget]
      · simp [h]
  | some global =>
      cases key with
      | service run service => simp [World.standing]
      | global key =>
          by_cases h : key = name
          · subst h; simp [World.standing, hget, GlobalOp.standing_apply]
          · simp [World.standing, Std.ExtTreeMap.getElem?_insert, h, Ne.symm h]

theorem standing_upsertGlobal (global : GlobalRecord) (key : Key) :
    (w.upsertGlobal global).standing key
      = if key = .global global.key then some (DevstackStatus.standing global.service)
        else w.standing key := by
  cases key with
  | service run service => simp [World.standing, World.upsertGlobal]
  | global key =>
      by_cases h : key = global.key
      · subst h; simp [World.standing, World.upsertGlobal]
      · simp [World.standing, World.upsertGlobal, Std.ExtTreeMap.getElem?_insert, h, Ne.symm h]

@[simp] theorem standing_raise (handle : HandleId) (key : Key) :
    (w.raise handle).standing key = w.standing key := by cases key <;> rfl

@[simp] theorem standing_storePaused (handle : HandleId) (value : Bool) (key : Key) :
    (w.storePaused handle value).standing key = w.standing key := by cases key <;> rfl

@[simp] theorem standing_allocate (key : Key) :
    w.allocate.standing key = w.standing key := by cases key <;> rfl

@[simp] theorem standing_unit (action : UnitAction) (owner : Key) (unitName : String) (key : Key) :
    (w.unit action owner unitName).standing key = w.standing key := by cases key <;> rfl

@[simp] theorem standing_beginLaunch (key' key : Key) :
    (w.beginLaunch key').standing key = w.standing key := by cases key <;> rfl

end World

end DevstackWorld
