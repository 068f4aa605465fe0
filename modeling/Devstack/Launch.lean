import Devstack.Config
import Devstack.Health

/-! # Launch — prepared services and the locked steps of a launch

    `src/app/launch/prepare.rs` and `watch.rs`, and the locked steps of
    `src/app/commands/runs.rs`: each definition is what one `with_run_mut` or
    `with_run` does to the run record.  The commands that string them together
    are in the modules that reason about them.

    A handle that is stopped raises its flag; the flags live outside the
    records, so such a step also returns the handles it stopped. -/

namespace DevstackLaunch

open DevstackModel DevstackStores DevstackHealth DevstackConfig

-- ── launch/prepare.rs ─────────────────────────────────────────────────────────

/-- `sanitize_env_key`. -/
def sanitizeEnvKey (name : String) : String :=
  let out := name.toList.map
    (fun ch => if ch.isAlphanum then ch.toUpper else '_')
  if out = [] then "_" else String.ofList out

/-- `unit_name_for_run`. -/
def unitNameForRun (runId service : String) : String :=
  s!"devstack-run-{sanitizeEnvKey runId}-{sanitizeEnvKey service}.service"

structure PreparedService where
  name : String
  unitName : String
  port : Option Port
  listenPort : Option Port
  scheme : String
  url : Option String
  captureApi : Bool
  captureApiBodyLimit : Nat
  captureApiIgnore : List String
  deps : List String
  readiness : ReadinessSpec
  logPath : String
  cwd : String
  env : BTreeMap String
  cmd : String
  watchHash : String
  watchPatterns : List String
  ignorePatterns : List String
  watchExtraFiles : List String
  watchFingerprint : List UInt8
  autoRestart : Bool
  deriving DecidableEq

/-- A prepared service without ports or watches. -/
def PreparedService.plain (name cmd : String) (deps : List String) : PreparedService where
  name := name
  unitName := s!"devstack-run-r1-{name}.service"
  port := none
  listenPort := none
  scheme := "http"
  url := none
  captureApi := false
  captureApiBodyLimit := 65536
  captureApiIgnore := []
  deps := deps
  readiness := ⟨.none, 30000⟩
  logPath := s!"/run/logs/{name}.log"
  cwd := "/app"
  env := ∅
  cmd := cmd
  watchHash := "h1"
  watchPatterns := []
  ignorePatterns := []
  watchExtraFiles := []
  watchFingerprint := []
  autoRestart := false

/-- The `ServiceSpec` of `into_service_record`. -/
def PreparedService.spec (prepared : PreparedService) : ServiceSpec where
  name := prepared.name
  deps := prepared.deps
  readiness := prepared.readiness
  autoRestart := prepared.autoRestart
  watchPatterns := prepared.watchPatterns
  ignorePatterns := prepared.ignorePatterns

/-- The `ServiceLaunchPlan` of `into_service_record`. -/
def PreparedService.launch (prepared : PreparedService) : ServiceLaunchPlan where
  unitName := prepared.unitName
  cwd := prepared.cwd
  env := prepared.env
  cmd := prepared.cmd
  logPath := prepared.logPath
  port := prepared.port
  listenPort := prepared.listenPort
  scheme := prepared.scheme
  url := prepared.url
  captureApi := prepared.captureApi
  captureApiBodyLimit := prepared.captureApiBodyLimit
  captureApiIgnore := prepared.captureApiIgnore
  watchHash := prepared.watchHash
  watchFingerprint := prepared.watchFingerprint
  watchExtraFiles := prepared.watchExtraFiles

/-- `PreparedService::into_service_record`. -/
def intoServiceRecord (prepared : PreparedService) (state : ServiceState)
    (lastFailure lastStartedAt : Option String) : ServiceRecord :=
  let record := ServiceRecord.new prepared.spec prepared.launch
  { record with
    runtime :=
      { record.runtime with
        state := state
        lastFailure := lastFailure
        lastStartedAt := lastStartedAt } }

structure ExistingServiceSnapshot where
  watchHash : Option String
  state : ServiceState
  port : Option Port
  listenPort : Option Port
  deriving DecidableEq

/-- The snapshot `refresh_run` and `release_unrecorded_stack_ports` take of one record. -/
def ExistingServiceSnapshot.of (record : ServiceRecord) : ExistingServiceSnapshot where
  watchHash := some record.launch.watchHash
  state := record.runtime.state
  port := record.launch.port
  listenPort := record.launch.listenPort

/-- The `existing` map of `refresh_run`. -/
def existingServices (run : RunRecord) : BTreeMap ExistingServiceSnapshot :=
  run.services.map (fun _ record => .of record)

/-- The `removed` list of `refresh_run`. -/
def removedServices (run : RunRecord) (plan : StackPlan) : List String :=
  run.services.keys.filter (fun name => name ∉ plan.services)

/-- `service_needs_restart`. -/
def serviceNeedsRestart (force : Bool) (existing : BTreeMap ExistingServiceSnapshot)
    (service : String) (prepared : PreparedService) : Bool :=
  force ||
    match existing[service]? with
    | none => true
    | some snapshot =>
        decide (snapshot.watchHash ≠ some prepared.watchHash)
          || decide (snapshot.state = .stopped ∨ snapshot.state = .failed
              ∨ snapshot.state = .degraded)

-- ── handles ───────────────────────────────────────────────────────────────────

/-- `stop_health_monitor`: the record, and the handle whose flag is raised. -/
def stopHealthMonitor (record : ServiceRecord) : ServiceRecord × List HandleId :=
  ({ record with handles := { record.handles with health := none } },
    record.handles.health.toList)

/-- `stop_watch`. -/
def stopWatch (record : ServiceRecord) : ServiceRecord × List HandleId :=
  ({ record with handles := { record.handles with watch := none } },
    record.handles.watch.toList)

/-- `stop_api_capture`. -/
def stopApiCapture (record : ServiceRecord) : ServiceRecord × List HandleId :=
  ({ record with handles := { record.handles with apiCapture := none } },
    record.handles.apiCapture.toList)

/-- Every handle of a record, in the order the removal paths stop them. -/
def liveHandles (record : ServiceRecord) : List HandleId :=
  record.handles.health.toList ++ record.handles.watch.toList
    ++ record.handles.apiCapture.toList

-- ── launch/watch.rs ───────────────────────────────────────────────────────────

/-- `capture_config_changed`. -/
def captureConfigChanged (launch : ServiceLaunchPlan) (prepared : PreparedService) : Bool :=
  decide (launch.captureApi ≠ prepared.captureApi
    ∨ launch.captureApiBodyLimit ≠ prepared.captureApiBodyLimit
    ∨ launch.captureApiIgnore ≠ prepared.captureApiIgnore
    ∨ launch.port ≠ prepared.port
    ∨ launch.listenPort ≠ prepared.listenPort)

/-- The first block of `apply_prepared_to_runtime`, run when `reset_state`. -/
def resetState (record : ServiceRecord) : ServiceRecord × List HandleId :=
  let health := stopHealthMonitor record
  let watch := stopWatch health.1
  ({ watch.1 with
      runtime := { watch.1.runtime with state := .starting, lastFailure := none } },
    health.2 ++ watch.2)

/-- `apply_prepared_to_runtime`.  The test that resets `watch_paused` comes after
    the assignment of `spec.auto_restart`, so it compares the new value with
    itself. -/
def applyPreparedToRuntime (record : ServiceRecord) (prepared : PreparedService)
    (reset : Bool) : ServiceRecord × List HandleId :=
  let start := if reset then resetState record else (record, [])
  let record := { start.1 with spec := prepared.spec }
  let changed := captureConfigChanged record.launch prepared
  let record := { record with launch := prepared.launch }
  let record :=
    if record.spec.autoRestart ≠ prepared.autoRestart then
      { record with runtime := { record.runtime with watchPaused := false } }
    else record
  if changed then
    let capture := stopApiCapture record
    (capture.1, start.2 ++ capture.2)
  else (record, start.2)

/-- What `sync_service_auto_restart_watcher` finds at its first lock. -/
inductive WatchSync where
  | off
  | keep (handle : HandleId) (paused : Bool)
  | start (paused : Bool)
  deriving DecidableEq

/-- The decision of the first lock. -/
def watchSync (record : ServiceRecord) : WatchSync :=
  if record.spec.autoRestart = false ∨ record.runtime.lastStartedAt = none then .off
  else
    match record.handles.watch with
    | some handle => .keep handle record.runtime.watchPaused
    | none => .start record.runtime.watchPaused

/-- The first locked step of `sync_service_auto_restart_watcher`. -/
def watchSyncBegin (record : ServiceRecord) : ServiceRecord × List HandleId :=
  match watchSync record with
  | .off => stopWatch record
  | _ => (record, [])

/-- The condition of the second locked step, `keep_handle`. -/
def watchSyncKeeps (record : ServiceRecord) : Bool :=
  record.spec.autoRestart && record.runtime.lastStartedAt.isSome
    && record.handles.watch.isNone

/-- The second locked step: the new watcher's handle is kept or its flag raised. -/
def watchSyncKeep (fresh : HandleId) (record : ServiceRecord) : ServiceRecord :=
  if watchSyncKeeps record then
    { record with handles := { record.handles with watch := some fresh } }
  else record

/-- Whether `sync_service_api_capture_proxy` turns the capture off at its first lock. -/
def captureOff (record : ServiceRecord) : Bool :=
  !record.launch.captureApi || decide (record.runtime.state = .stopped)
    || record.runtime.lastStartedAt.isNone

/-- Whether it starts a proxy after its first lock. -/
def captureStarts (record : ServiceRecord) : Bool :=
  !captureOff record && record.handles.apiCapture.isNone
    && record.launch.port.isSome && record.launch.listenPort.isSome

/-- The first locked step of `sync_service_api_capture_proxy`. -/
def captureSyncBegin (record : ServiceRecord) : ServiceRecord × List HandleId :=
  if captureOff record then stopApiCapture record else (record, [])

/-- The condition of its second locked step. -/
def captureSyncKeeps (record : ServiceRecord) : Bool :=
  record.launch.captureApi && record.handles.apiCapture.isNone

/-- The second locked step: the new proxy's handle is kept or stopped. -/
def captureSyncKeep (fresh : HandleId) (record : ServiceRecord) : ServiceRecord :=
  if captureSyncKeeps record then
    { record with handles := { record.handles with apiCapture := some fresh } }
  else record

-- ── commands/runs.rs ──────────────────────────────────────────────────────────

/-- Whether a launch releases a port of the previous record: its public port, or
    its capture backend port. -/
def releasesPrevious (existing : BTreeMap ExistingServiceSnapshot) (service : String)
    (prepared : PreparedService) : Bool :=
  let previousPort := (existing[service]?).bind (·.port)
  let previousListenPort := (existing[service]?).bind (·.listenPort)
  (previousPort.isSome && decide (previousPort ≠ prepared.port))
    || (previousListenPort.isSome && decide (previousListenPort ≠ prepared.listenPort)
        && decide (previousListenPort ≠ previousPort))

/-- `run.services.get_mut(service)` with a change that may stop handles. -/
def updateService (run : RunRecord) (service : String)
    (f : ServiceRecord → ServiceRecord × List HandleId) : RunRecord × List HandleId :=
  match run.services[service]? with
  | some record =>
      let updated := f record
      ({ run with services := run.services.insert service updated.1 }, updated.2)
  | none => (run, [])

/-- `replace_service_record`. -/
def replaceServiceRecord (run : RunRecord) (service : String) (record : ServiceRecord) :
    RunRecord × List HandleId :=
  ({ run with services := run.services.insert service record },
    match run.services[service]? with
    | some previous => liveHandles previous
    | none => [])

/-- The locked step of `remove_services_missing_from_stack`; nothing is locked
    when nothing was removed. -/
def removeServicesMissingFromStack (run : RunRecord) (removed : List String) :
    RunRecord × List HandleId :=
  if removed = [] then (run, [])
  else
    let services := run.services.filter (fun name _ => name ∉ removed)
    ((recomputeRunState { run with services := services }).1,
      removed.flatMap (fun name =>
        match run.services[name]? with
        | some record => liveHandles record
        | none => []))

/-- `update_run_launch_resources`. -/
def updateRunLaunchResources (run : RunRecord) (baseEnv : BTreeMap String) : RunRecord :=
  if run.state = .stopped then
    { run with baseEnv := baseEnv, state := .starting, stoppedAt := none }
  else { run with baseEnv := baseEnv }

/-- The record `record_failed_init_service` stores. -/
def failedInitRecord (prepared : PreparedService) (error : String) : ServiceRecord :=
  intoServiceRecord prepared .failed (some s!"init task failed: {error}") none

/-- The record `store_service_launch_result` stores. -/
def launchResultRecord (prepared : PreparedService) (start : Except String Unit)
    (now : String) : ServiceRecord :=
  match start with
  | .ok _ => intoServiceRecord prepared .starting none (some now)
  | .error err => intoServiceRecord prepared .failed (some err) none

section Records

variable (record : ServiceRecord) (prepared : PreparedService)

@[simp] theorem intoServiceRecord_state (state : ServiceState) (failure startedAt) :
    (intoServiceRecord prepared state failure startedAt).runtime.state = state := rfl

@[simp] theorem intoServiceRecord_launch (state : ServiceState) (failure startedAt) :
    (intoServiceRecord prepared state failure startedAt).launch = prepared.launch := rfl

@[simp] theorem intoServiceRecord_spec (state : ServiceState) (failure startedAt) :
    (intoServiceRecord prepared state failure startedAt).spec = prepared.spec := rfl

@[simp] theorem intoServiceRecord_handles (state : ServiceState) (failure startedAt) :
    (intoServiceRecord prepared state failure startedAt).handles = ⟨none, none, none⟩ := rfl

@[simp] theorem failedInitRecord_state (error : String) :
    (failedInitRecord prepared error).runtime.state = .failed := rfl

theorem launchResultRecord_state (start : Except String Unit) (now : String) :
    (launchResultRecord prepared start now).runtime.state
      = match start with
        | .ok _ => .starting
        | .error _ => .failed := by
  cases start <;> rfl

/-- A record kept by a refresh: its spec and launch are what was prepared, and at most the
    API capture is stopped. -/
theorem applyPreparedToRuntime_eq :
    applyPreparedToRuntime record prepared false
      = if captureConfigChanged record.launch prepared then
          stopApiCapture ⟨prepared.spec, prepared.launch, record.runtime, record.handles⟩
        else (⟨prepared.spec, prepared.launch, record.runtime, record.handles⟩, []) := by
  have hauto : ¬ prepared.spec.autoRestart ≠ prepared.autoRestart := fun h => h rfl
  simp only [applyPreparedToRuntime, Bool.false_eq_true, if_false, List.nil_append]
  rw [if_neg hauto]

@[simp] theorem applyPreparedToRuntime_spec :
    (applyPreparedToRuntime record prepared false).1.spec = prepared.spec := by
  rw [applyPreparedToRuntime_eq]
  split <;> rfl

@[simp] theorem applyPreparedToRuntime_launch :
    (applyPreparedToRuntime record prepared false).1.launch = prepared.launch := by
  rw [applyPreparedToRuntime_eq]
  split <;> rfl

/-- A record kept by a refresh keeps its runtime: only a reset touches it. -/
@[simp] theorem applyPreparedToRuntime_runtime :
    (applyPreparedToRuntime record prepared false).1.runtime = record.runtime := by
  rw [applyPreparedToRuntime_eq]
  split <;> rfl

/-- A refresh leaves the health monitor and the watcher, and the API capture as long as its
    configuration is the same. -/
theorem applyPreparedToRuntime_handles :
    (applyPreparedToRuntime record prepared false).1.handles
      = { record.handles with
          apiCapture :=
            if captureConfigChanged record.launch prepared then none
            else record.handles.apiCapture } := by
  rw [applyPreparedToRuntime_eq]
  split <;> rfl

@[simp] theorem watchSyncBegin_runtime :
    (watchSyncBegin record).1.runtime = record.runtime := by
  rw [watchSyncBegin]; split <;> rfl

@[simp] theorem watchSyncKeep_runtime (fresh : HandleId) :
    (watchSyncKeep fresh record).runtime = record.runtime := by
  rw [watchSyncKeep]; split <;> rfl

@[simp] theorem watchSyncBegin_launch :
    (watchSyncBegin record).1.launch = record.launch := by
  rw [watchSyncBegin]; split <;> rfl

@[simp] theorem watchSyncKeep_launch (fresh : HandleId) :
    (watchSyncKeep fresh record).launch = record.launch := by
  rw [watchSyncKeep]; split <;> rfl

@[simp] theorem watchSyncBegin_apiCapture :
    (watchSyncBegin record).1.handles.apiCapture = record.handles.apiCapture := by
  rw [watchSyncBegin]; split <;> rfl

@[simp] theorem watchSyncKeep_apiCapture (fresh : HandleId) :
    (watchSyncKeep fresh record).handles.apiCapture = record.handles.apiCapture := by
  rw [watchSyncKeep]; split <;> rfl

@[simp] theorem captureSyncBegin_runtime :
    (captureSyncBegin record).1.runtime = record.runtime := by
  rw [captureSyncBegin]; split <;> rfl

@[simp] theorem captureSyncKeep_runtime (fresh : HandleId) :
    (captureSyncKeep fresh record).runtime = record.runtime := by
  rw [captureSyncKeep]; split <;> rfl

end Records

section Runs

variable (run : RunRecord) (service : String)

/-- Only the named service changes. -/
theorem updateService_services (f : ServiceRecord → ServiceRecord × List HandleId)
    (name : String) :
    (updateService run service f).1.services[name]?
      = if name = service then (run.services[name]?).map (fun record => (f record).1)
        else run.services[name]? := by
  rw [updateService]
  cases hget : run.services[service]? with
  | none =>
      by_cases h : name = service
      · subst h; simp [hget]
      · simp [h]
  | some record =>
      by_cases h : name = service
      · subst h; simp [hget]
      · simp [Std.ExtTreeMap.getElem?_insert, h, Ne.symm h]

@[simp] theorem updateService_state (f : ServiceRecord → ServiceRecord × List HandleId) :
    (updateService run service f).1.state = run.state := by
  rw [updateService]; split <;> rfl

theorem replaceServiceRecord_services (record : ServiceRecord) (name : String) :
    (replaceServiceRecord run service record).1.services[name]?
      = if name = service then some record else run.services[name]? := by
  show (run.services.insert service record)[name]? = _
  rw [Std.ExtTreeMap.getElem?_insert]
  by_cases h : name = service
  · simp [h]
  · simp [h, Ne.symm h]

theorem existingServices_get (name : String) :
    (existingServices run)[name]? = (run.services[name]?).map .of := by
  simp [existingServices]

/-- The removed services are those of the run the plan has not. -/
theorem mem_removedServices (plan : StackPlan) (name : String) :
    name ∈ removedServices run plan ↔ name ∈ run.services ∧ name ∉ plan.services := by
  simp [removedServices]

/-- Removing keeps every service the plan has. -/
theorem removeServicesMissingFromStack_services {plan : StackPlan} {name : String}
    (hname : name ∈ plan.services) :
    (removeServicesMissingFromStack run (removedServices run plan)).1.services[name]?
      = run.services[name]? := by
  rw [removeServicesMissingFromStack]
  split
  · rfl
  · have hkeep : name ∉ removedServices run plan :=
      fun h => ((mem_removedServices run plan name).mp h).2 hname
    cases hget : run.services[name]? with
    | none => simp [hget]
    | some record => simp [Std.ExtTreeMap.getElem?_filter, hget, hkeep]

@[simp] theorem updateRunLaunchResources_services (baseEnv : BTreeMap String) :
    (updateRunLaunchResources run baseEnv).services = run.services := by
  rw [updateRunLaunchResources]; split <;> rfl

end Runs

-- ── updating in place ─────────────────────────────────────────────────────────

/-- What an update in place is to make of a record: what was prepared, as a launch would
    have it, in the state and with the failure of before, and no longer paused if
    `auto_restart` has changed. -/
structure InPlace (record : ServiceRecord) (prepared : PreparedService) (after : ServiceRecord) :
    Prop where
  spec : ∀ state failure startedAt,
    after.spec = (intoServiceRecord prepared state failure startedAt).spec
  launch : ∀ state failure startedAt,
    after.launch = (intoServiceRecord prepared state failure startedAt).launch
  state : after.runtime.state = record.runtime.state
  failure : after.runtime.lastFailure = record.runtime.lastFailure
  paused : after.runtime.watchPaused
    = if prepared.autoRestart ≠ record.spec.autoRestart then false else record.runtime.watchPaused

theorem inPlace_iff_of_kept {record after : ServiceRecord} {prepared : PreparedService}
    (hspec : after.spec = prepared.spec) (hlaunch : after.launch = prepared.launch)
    (hruntime : after.runtime = record.runtime) :
    InPlace record prepared after
      ↔ prepared.autoRestart = record.spec.autoRestart ∨ record.runtime.watchPaused = false := by
  constructor
  · intro h
    by_cases hauto : prepared.autoRestart = record.spec.autoRestart
    · exact Or.inl hauto
    · have hpaused := h.paused
      rw [if_pos hauto, hruntime] at hpaused
      exact Or.inr hpaused
  · intro h
    refine ⟨fun _ _ _ => hspec, fun _ _ _ => hlaunch, by rw [hruntime], by rw [hruntime], ?_⟩
    rw [hruntime]
    rcases h with hauto | hpaused
    · rw [if_neg (not_not_intro hauto)]
    · rw [hpaused]
      exact (ite_self false).symm

/-- **UPDATING IN PLACE IS RELAUNCHING**: exactly when the pause, if there is one, is not
    to be lifted. -/
theorem inPlace_iff (record : ServiceRecord) (prepared : PreparedService) :
    InPlace record prepared (applyPreparedToRuntime record prepared false).1
      ↔ prepared.autoRestart = record.spec.autoRestart ∨ record.runtime.watchPaused = false :=
  inPlace_iff_of_kept (applyPreparedToRuntime_spec record prepared)
    (applyPreparedToRuntime_launch record prepared) (applyPreparedToRuntime_runtime record prepared)

/-- A service that was watched with `auto_restart` and paused. -/
def webPaused : ServiceRecord :=
  let record := intoServiceRecord { PreparedService.plain "web" "serve" [] with autoRestart := true }
    .ready none none
  { record with runtime := { record.runtime with watchPaused := true } }

/-- The pause stays when `auto_restart` is taken out of the configuration. -/
theorem pause_kept :
    ¬ InPlace webPaused (.plain "web" "serve" [])
      (applyPreparedToRuntime webPaused (.plain "web" "serve" []) false).1 := by
  intro h
  have hpaused := h.paused
  rw [applyPreparedToRuntime_runtime] at hpaused
  exact nomatch hpaused

end DevstackLaunch
