import Devstack.Daemon.World
import Devstack.Lib.Interleaving

/-! # Tasks — the suspension points of the daemon's tasks

    One constructor of `Task` for each point where a task of the daemon can be
    suspended between two accesses to what it shares with others; `Task.step` is
    the code from there to the next such point.  An `await` that only brings an
    answer of the outside (a probe, a sleep, an init task, a port registry call)
    is part of the step that uses the answer: the answers of a step are its `Env`,
    and nothing is assumed about them.

    A function that is called from several places returns to a continuation
    (`Cont`, `Caller`, `GlobalsCaller`): the code of the caller after the call. -/

namespace DevstackTasks

open DevstackModel DevstackStores DevstackReadiness DevstackHealth DevstackConfig DevstackLaunch
open DevstackStatus DevstackLocked DevstackWorld DevstackInterleaving

-- ── answers ───────────────────────────────────────────────────────────────────

/-- What the filesystem watcher's channel brings: it is closed, there is nothing
    to do yet, or a debounced change is due and the watch hash was computed. -/
inductive WatchEvent where
  | closed
  | quiet
  | due (hash : Except String String)

/-- A global that a configuration names. -/
structure GlobalTarget where
  key : String
  name : String
  projectDir : String
  configPath : String

/-- What the outside answers during one step. -/
structure Env where
  now : String
  engine : RegexEngine
  obs : Observation
  unitStatus : String → Option UnitStatus
  loadPostInit : Except String Unit
  unit : Except String Unit
  readiness : Except String Unit
  writeManifest : Except String Unit
  writeDaemonState : Except String Unit
  watcher : Except String Unit
  event : WatchEvent
  capture : Except String Unit
  ports : Except String Unit
  prepared : Except String PreparedService
  init : Except String Unit
  requested : Except String (StackPlan × String × List GlobalTarget)
  canonical : String → String
  newRunId : String
  baseEnv : Except String (BTreeMap String)
  global : Except String (PreparedService × Bool)
  expired : String → Bool

-- ── tasks and continuations ───────────────────────────────────────────────────

/-- `UpRequest`; the file and the services it names only matter to the plan. -/
structure UpRequest where
  stack : String
  projectDir : String
  runId : Option String
  noWait : Bool
  newRun : Bool
  force : Bool

/-- The variables of `up` and `refresh_run`. -/
structure UpJob where
  runId : String
  plan : StackPlan
  projectDir : String
  configDir : String
  globals : List GlobalTarget
  noWait : Bool
  force : Bool
  existing : BTreeMap ExistingServiceSnapshot
  creates : Bool

/-- A health monitor's variables; its handle carries the stop flag. -/
structure MonitorTask where
  run : String
  service : String
  handle : HandleId
  monitor : Monitor

structure WatcherTask where
  run : String
  service : String
  handle : HandleId

structure GlobalWatcherTask where
  key : String
  handle : HandleId

/-- A step of the daemon's start: `restore_active_globals`,
    `restore_api_capture_proxies`, `restore_auto_restart_watchers`. -/
inductive BootJob where
  | ensureGlobal (target : GlobalTarget)
  | capture (run service : String)
  | watcher (run service : String)
  | globalWatcher (key : String)

/-- Who called `restart_service_inner`; none of them looks at its result. -/
inductive Caller where
  | request
  | monitor (m : MonitorTask)
  | watcher (t : WatcherTask)

/-- Who called `ensure_globals`. -/
inductive GlobalsCaller where
  | up (job : UpJob)
  | boot (key : String) (jobs : List BootJob)

/-- The code after a call of a function that several places call. -/
inductive Cont where
  | finish
  | restarted (caller : Caller)
  | monitorTurn (m : MonitorTask) (restart : Bool)
  | statusRest (runs : List String)
  | stopped (run : String) (purge : Bool)
  | resumeRest (run : String) (services : List String)
  | boot (jobs : List BootJob)
  | globalPersisted (key : String) (failure : Option String) (rest : List GlobalTarget)
      (caller : GlobalsCaller)
  | globalSynced (failure : Option String) (rest : List GlobalTarget) (caller : GlobalsCaller)
  | unchangedSynced (job : UpJob) (name : String) (rest : List String)
  | launchRest (job : UpJob) (rest : List String)
  | launched (job : UpJob) (prepared : PreparedService) (launch : Nat)
      (start : Except String Unit) (name : String) (rest : List String)
  | captured (job : UpJob) (launch : Nat) (name : String) (rest : List String)

/-- The variables of `restart_service_inner` after its first locked step. -/
structure Restarting where
  run : String
  service : String
  noWait : Bool
  launch : Nat
  unitName : String
  caller : Caller

inductive Task where
  -- app/runtime.rs
  | persist (run : String) (k : Cont)
  | write (manifest : PersistedRun) (k : Cont)
  | persistGlobal (key : String) (k : Cont)
  | writeGlobal (manifest : PersistedGlobal) (k : Cont)
  -- launch/watch.rs
  | syncWatcher (run service : String) (k : Cont)
  | keepWatcher (t : WatcherTask) (k : Cont)
  | syncGlobalWatcher (key : String) (k : Cont)
  | keepGlobalWatcher (t : GlobalWatcherTask) (k : Cont)
  | syncCapture (run service : String) (k : Cont)
  | keepCapture (run service : String) (k : Cont)
  | watcherTop (t : WatcherTask)
  | watcherEvent (t : WatcherTask)
  | watcherCompare (t : WatcherTask) (hash : String)
  | globalWatcherTop (t : GlobalWatcherTask)
  | globalWatcherEvent (t : GlobalWatcherTask)
  | globalWatcherCompare (t : GlobalWatcherTask) (hash : String)
  -- commands/restart.rs
  | restart (run service : String) (noWait : Bool) (caller : Caller)
  | loadPostInit (r : Restarting)
  | restartUnit (r : Restarting)
  | restarted (r : Restarting)
  | waitRestart (r : Restarting)
  -- launch/readiness.rs
  | waitReadiness (run service : String) (launch : Nat)
  | monitorInit (run service : String)
  | monitorTop (m : MonitorTask)
  | monitorSlept (m : MonitorTask)
  | monitorProbe (m : MonitorTask)
  | monitorLimit (m : MonitorTask)
  -- commands/reconcile.rs
  | status (run : String) (k : Cont)
  | writeStatus (run : String) (copy : RunRecord) (k : Cont)
  | listRuns
  -- commands/ensure_globals.rs
  | ensureGlobals (todo : List GlobalTarget) (caller : GlobalsCaller)
  | checkGlobal (target : GlobalTarget) (existing : Option PersistedGlobal)
      (rest : List GlobalTarget) (caller : GlobalsCaller)
  | startGlobal (target : GlobalTarget) (prepared : PreparedService) (createdAt : String)
      (rest : List GlobalTarget) (caller : GlobalsCaller)
  | waitGlobal (target : GlobalTarget) (prepared : PreparedService) (createdAt : String)
      (launch : Nat) (start : Except String Unit) (rest : List GlobalTarget)
      (caller : GlobalsCaller)
  | restartGlobal (t : GlobalWatcherTask)
  | persistGlobalRestart (t : GlobalWatcherTask) (unitName : String) (launch : Nat)
  | writeGlobalRestart (manifest : PersistedGlobal) (t : GlobalWatcherTask) (unitName : String)
      (launch : Nat)
  | restartGlobalUnit (t : GlobalWatcherTask) (unitName : String) (launch : Nat)
  | waitGlobalRestart (key : String) (launch : Nat)
  -- commands/runs.rs: up and refresh_run
  | up (request : UpRequest)
  | refresh (job : UpJob)
  | stopRemoved (job : UpJob) (removed todo : List String)
  | removeMissing (job : UpJob) (removed : List String)
  | openRun (job : UpJob)
  | launchNext (job : UpJob) (todo : List String)
  | applyUnchanged (job : UpJob) (prepared : PreparedService) (name : String) (rest : List String)
  | storeFailedInit (job : UpJob) (prepared : PreparedService) (error name : String)
      (rest : List String)
  | startUnit (job : UpJob) (prepared : PreparedService) (name : String) (rest : List String)
  | storeResult (job : UpJob) (prepared : PreparedService) (launch : Nat)
      (start : Except String Unit) (name : String) (rest : List String)
  | proxyFailed (job : UpJob) (launch : Nat) (name reason : String)
  | handleReadiness (job : UpJob) (launch : Nat) (name : String) (rest : List String)
  | finalize (job : UpJob)
  -- commands/runs.rs: down and kill
  | stopHandles (run : String) (kill purge : Bool)
  | listServices (run : String) (kill purge : Bool)
  | stopUnits (run : String) (kill purge : Bool) (todo : List String)
  | releasePorts (run : String) (purge : Bool)
  | markStopped (run : String) (purge : Bool)
  | purge (run : String)
  -- commands/watch.rs, commands/gc.rs
  | pauseWatch (run : String) (service : Option String)
  | resumeWatch (run : String) (service : Option String)
  | gc
  -- daemon/bootstrap.rs
  | boot (jobs : List BootJob)

/-- The parts of the source that the tasks are taken from. -/
inductive Family where
  | manifests
  | watch
  | restart
  | readiness
  | reconcile
  | globals
  | opening
  | launching
  | stopping
  | control
  deriving DecidableEq, Repr

def Task.family : Task → Family
  | .persist .. | .write .. | .persistGlobal .. | .writeGlobal .. => .manifests
  | .syncWatcher .. | .keepWatcher .. | .syncGlobalWatcher .. | .keepGlobalWatcher ..
  | .syncCapture .. | .keepCapture .. | .watcherTop _ | .watcherEvent _ | .watcherCompare ..
  | .globalWatcherTop _ | .globalWatcherEvent _ | .globalWatcherCompare .. => .watch
  | .restart .. | .loadPostInit _ | .restartUnit _ | .restarted _ | .waitRestart _ => .restart
  | .waitReadiness .. | .monitorInit .. | .monitorTop _ | .monitorSlept _ | .monitorProbe _
  | .monitorLimit _ => .readiness
  | .status .. | .writeStatus .. | .listRuns => .reconcile
  | .ensureGlobals .. | .checkGlobal .. | .startGlobal .. | .waitGlobal .. | .restartGlobal _
  | .persistGlobalRestart .. | .writeGlobalRestart .. | .restartGlobalUnit ..
  | .waitGlobalRestart .. => .globals
  | .up _ | .refresh _ | .stopRemoved .. | .removeMissing .. | .openRun _ => .opening
  | .launchNext .. | .applyUnchanged .. | .storeFailedInit .. | .startUnit .. | .storeResult ..
  | .proxyFailed .. | .handleReadiness .. | .finalize _ => .launching
  | .stopHandles .. | .listServices .. | .stopUnits .. | .releasePorts .. | .markStopped ..
  | .purge _ => .stopping
  | .pauseWatch .. | .resumeWatch .. | .gc | .boot _ => .control

/-- The code of the callers of `restart_service_inner` after it. -/
def Caller.resume : Caller → List Task
  | .request => []
  | .monitor m => if 3 ≤ m.monitor.restartCount then [.monitorLimit m] else [.monitorTop m]
  | .watcher t => [.watcherTop t]

/-- The code of the callers of `ensure_globals` after it. -/
def GlobalsCaller.resume : GlobalsCaller → Except String Unit → List Task
  | .up job, .ok _ => [.openRun job]
  | .up _, .error _ => []
  | .boot key jobs, .ok _ => [.syncGlobalWatcher key (.boot jobs)]
  | .boot _ jobs, .error _ => [.boot jobs]

/-- The tasks a call becomes when it returns. -/
def Cont.resume : Cont → Except String Unit → List Task
  | .finish, _ => []
  | .restarted caller, _ => caller.resume
  | .monitorTurn m restart, _ =>
      if restart then [.restart m.run m.service true (.monitor m)] else [.monitorTop m]
  | .statusRest [], _ => []
  | .statusRest (run :: runs), .ok _ => [.status run (.statusRest runs)]
  | .statusRest _, .error _ => []
  | .stopped run purge, .ok _ => if purge then [.purge run] else []
  | .stopped _ _, .error _ => []
  | .resumeRest _ [], _ => []
  | .resumeRest run (service :: services), _ =>
      [.syncWatcher run service (.resumeRest run services)]
  | .boot jobs, _ => [.boot jobs]
  | .globalPersisted key failure rest caller, .ok _ =>
      [.syncGlobalWatcher key (.globalSynced failure rest caller)]
  | .globalPersisted _ _ _ caller, .error err => caller.resume (.error err)
  | .globalSynced none rest caller, .ok _ => [.ensureGlobals rest caller]
  | .globalSynced (some failure) _ caller, .ok _ => caller.resume (.error failure)
  | .globalSynced _ _ caller, .error err => caller.resume (.error err)
  | .unchangedSynced job name rest, _ => [.syncCapture job.runId name (.launchRest job rest)]
  | .launchRest job rest, _ => [.launchNext job rest]
  | .launched job _ launch (.ok _) name rest, _ =>
      [.syncCapture job.runId name (.captured job launch name rest)]
  | .launched job _ _ (.error _) _ rest, _ => [.launchNext job rest]
  | .captured job launch name rest, .ok _ => [.handleReadiness job launch name rest]
  | .captured job launch name _, .error err =>
      [.proxyFailed job launch name s!"API capture proxy failed: {err}"]

/-! ## The steps -/

/-- `mark_service_ready`, with the monitor it may start. -/
def markReadyStep (w : World) (run service now : String) : World × List Task :=
  let marked := w.lock run (.markReady service now w.nextHandle)
  match (w.runs[run]?).bind (fun r => r.services[service]?) with
  | some record =>
      if needsMonitor record then (marked.allocate, [.monitorInit run service]) else (marked, [])
  | none => (marked, [])

/-- The locked step after a readiness wait: ready, or failed with its reason. -/
def deliver (w : World) (run service now : String) (result : Except String Unit) :
    World × List Task :=
  match result with
  | .ok _ => markReadyStep w run service now
  | .error reason => (w.lock run (.markFailed service now reason), [])

/-- `same_project_dir`. -/
def sameProjectDir (canonical : String → String) (runDir projectDir : String) : Bool :=
  decide (runDir = projectDir) || decide (canonical runDir = canonical projectDir)

/-- `find_latest_run_for_project_stack`: the first run with the greatest creation time. -/
def findLatestRunForProjectStack (canonical : String → String) (w : World)
    (projectDir stack : String) : Option String :=
  let candidates := w.runs.toList.filter (fun kv =>
    decide (kv.2.stack = stack) && sameProjectDir canonical kv.2.projectDir projectDir
      && decide (kv.2.state ≠ .stopped) && kv.2.stoppedAt.isNone)
  let latest := candidates.foldl (fun best kv =>
    match best with
    | none => some (kv.2.createdAt, kv.2.runId)
    | some (createdAt, runId) =>
        if createdAt < kv.2.createdAt then some (kv.2.createdAt, kv.2.runId)
        else some (createdAt, runId)) (none : Option (String × String))
  latest.map (·.2)

/-- `build_global_record`. -/
def buildGlobalRecord (target : GlobalTarget) (prepared : PreparedService)
    (state : ServiceState) (lastFailure lastStartedAt : Option String) (watchPaused : Bool)
    (lifecycle : RunLifecycle) (createdAt : String) : GlobalRecord :=
  let service := intoServiceRecord prepared state lastFailure lastStartedAt
  { key := target.key
    name := target.name
    projectDir := target.projectDir
    configPath := target.configPath
    service := { service with runtime := { service.runtime with watchPaused := watchPaused } }
    state := lifecycle
    createdAt := createdAt
    stoppedAt := none }

/-- The record `ensure_globals` stores for a unit that is already active. -/
def activeGlobal (env : Env) (target : GlobalTarget) (prepared : PreparedService)
    (existing : Option PersistedGlobal) : GlobalRecord :=
  buildGlobalRecord target prepared .ready none
    (some (((existing.bind (·.service.lastStartedAt))).getD env.now))
    ((existing.map (·.service.watchPaused)).getD false) .running
    ((existing.map (·.createdAt)).getD env.now)

/-- The record it stores after a start, and the failure it reports. -/
def startedGlobal (env : Env) (target : GlobalTarget) (prepared : PreparedService)
    (createdAt : String) (start : Except String Unit) : GlobalRecord × Option String :=
  let failure :=
    match start, env.readiness with
    | .error _, _ => some s!"start global service '{target.name}'"
    | .ok _, .error _ => some s!"launch global service '{target.name}'"
    | .ok _, .ok _ => none
  match failure with
  | none =>
      (buildGlobalRecord target prepared .ready none (some env.now) false .running createdAt, none)
  | some reason =>
      (buildGlobalRecord target prepared .failed (some reason) none false .degraded createdAt,
        some reason)

/-- The handles whose paused flag `pause_watch` and `resume_watch` store. -/
def pausableHandles (run : RunRecord) (service : Option String) : List HandleId :=
  run.services.toList.flatMap (fun kv =>
    if (service = none ∨ service = some kv.1) ∧ kv.2.spec.autoRestart = true then
      kv.2.handles.watch.toList
    else [])

/-- The services `pause_watch` and `resume_watch` act on, or why they refuse. -/
def watchTargets (run : RunRecord) (service : Option String) : Except String (List String) :=
  match service with
  | some name =>
      match run.services[name]? with
      | none => .error s!"service {name} not found"
      | some record =>
          if record.spec.autoRestart then .ok [name]
          else .error s!"service {name} does not have auto_restart enabled"
  | none =>
      .ok ((run.services.toList.filter (fun kv => kv.2.spec.autoRestart)).map (·.1))

/-- The locked step of `pause_watch` and `resume_watch`. -/
def setPausedStep (w : World) (runId : String) (run : RunRecord) (service : Option String)
    (value : Bool) : World :=
  (pausableHandles run service).foldl (fun w handle => w.storePaused handle value)
    (w.lock runId (.setWatchPaused service value))

/-- Whether `run_gc` removes a run; a stopped run without a stop time goes too. -/
def gcRemoves (expired : String → Bool) (run : RunRecord) : Bool :=
  decide (run.state = .stopped) &&
    match run.stoppedAt with
    | some stoppedAt => expired stoppedAt
    | none => true

/-- The code of a task from one suspension point to the next. -/
def Task.step (env : Env) (w : World) : Task → World × List Task
  -- `persist_manifest`: the manifest is read under the lock, then written
  | .persist run k =>
      match w.runs[run]? with
      | some record => (w, [.write (persistedRun record) k])
      | none => (w, k.resume (.error s!"run {run} not found"))
  | .write manifest k =>
      match env.writeManifest with
      | .error err => (w, k.resume (.error err))
      | .ok _ =>
          ({ w with manifests := w.manifests.insert manifest.runId manifest },
            k.resume env.writeDaemonState)
  | .persistGlobal key k =>
      match w.globals[key]? with
      | some global => (w, [.writeGlobal (persistedGlobal global) k])
      | none => (w, k.resume (.error s!"global {key} not found"))
  | .writeGlobal manifest k =>
      match env.writeManifest with
      | .error err => (w, k.resume (.error err))
      | .ok _ =>
          ({ w with globalManifests := w.globalManifests.insert manifest.key manifest },
            k.resume (.ok ()))
  -- `sync_service_auto_restart_watcher`
  | .syncWatcher run service k =>
      match (w.runs[run]?).bind (fun r => r.services[service]?) with
      | none => (w, k.resume (.ok ()))
      | some record =>
          match watchSync record with
          | .off => (w.lock run (.syncWatcher service), k.resume (.ok ()))
          | .keep handle paused => (w.storePaused handle paused, k.resume (.ok ()))
          | .start paused =>
              match env.watcher with
              | .error err => (w, k.resume (.error err))
              | .ok _ =>
                  let t : WatcherTask := ⟨run, service, w.nextHandle⟩
                  (w.allocate.storePaused t.handle paused, [.keepWatcher t k, .watcherTop t])
  | .keepWatcher t k =>
      match (w.runs[t.run]?).bind (fun r => r.services[t.service]?) with
      | none => (w.raise t.handle, k.resume (.ok ()))
      | some record =>
          let kept := w.lock t.run (.keepWatcher t.service t.handle)
          (if watchSyncKeeps record then kept.storePaused t.handle record.runtime.watchPaused
            else kept, k.resume (.ok ()))
  | .syncGlobalWatcher key k =>
      match w.globals[key]? with
      | none => (w, k.resume (.ok ()))
      | some global =>
          match watchSync global.service with
          | .off => (w.lockGlobal key .syncWatcher, k.resume (.ok ()))
          | .keep handle paused => (w.storePaused handle paused, k.resume (.ok ()))
          | .start paused =>
              match env.watcher with
              | .error err => (w, k.resume (.error err))
              | .ok _ =>
                  let t : GlobalWatcherTask := ⟨key, w.nextHandle⟩
                  (w.allocate.storePaused t.handle paused,
                    [.keepGlobalWatcher t k, .globalWatcherTop t])
  | .keepGlobalWatcher t k =>
      match w.globals[t.key]? with
      | none => (w.raise t.handle, k.resume (.ok ()))
      | some global =>
          let kept := w.lockGlobal t.key (.keepWatcher t.handle)
          (if watchSyncKeeps global.service then
              kept.storePaused t.handle global.service.runtime.watchPaused
            else kept, k.resume (.ok ()))
  -- `sync_service_api_capture_proxy`
  | .syncCapture run service k =>
      match (w.runs[run]?).bind (fun r => r.services[service]?) with
      | none => (w, k.resume (.ok ()))
      | some record =>
          (w.lock run (.syncCapture service),
            if captureStarts record then [.keepCapture run service k] else k.resume (.ok ()))
  | .keepCapture run service k =>
      match env.capture, w.runs[run]? with
      | .error err, _ => (w, k.resume (.error err))
      | .ok _, none => (w, k.resume (.error s!"run {run} not found"))
      | .ok _, some record =>
          match record.services[service]? with
          | none => (w.allocate.raise w.nextHandle, k.resume (.ok ()))
          | some _ =>
              (w.allocate.lock run (.keepCapture service w.nextHandle), k.resume (.ok ()))
  -- the watchers' loops
  | .watcherTop t => if t.handle ∈ w.raised then (w, []) else (w, [.watcherEvent t])
  | .watcherEvent t =>
      match env.event with
      | .closed => (w, [])
      | .quiet => (w, [.watcherTop t])
      | .due hash =>
          if t.handle ∈ w.paused then (w, [.watcherTop t])
          else
            match hash with
            | .error _ => (w, [.watcherTop t])
            | .ok hash => (w, [.watcherCompare t hash])
  | .watcherCompare t hash =>
      match (w.runs[t.run]?).bind (fun r => r.services[t.service]?) with
      | none => (w, [])
      | some record =>
          ((w.lock t.run (.compareHash t.service hash)).storePaused t.handle
              record.runtime.watchPaused,
            if hashDiffers hash record then [.restart t.run t.service true (.watcher t)]
            else [.watcherTop t])
  | .globalWatcherTop t =>
      if t.handle ∈ w.raised then (w, []) else (w, [.globalWatcherEvent t])
  | .globalWatcherEvent t =>
      match env.event with
      | .closed => (w, [])
      | .quiet => (w, [.globalWatcherTop t])
      | .due hash =>
          if t.handle ∈ w.paused then (w, [.globalWatcherTop t])
          else
            match hash with
            | .error _ => (w, [.globalWatcherTop t])
            | .ok hash => (w, [.globalWatcherCompare t hash])
  | .globalWatcherCompare t hash =>
      match w.globals[t.key]? with
      | none => (w, [])
      | some global =>
          ((w.lockGlobal t.key (.compareHash hash)).storePaused t.handle
              global.service.runtime.watchPaused,
            if hashDiffers hash global.service then [.restartGlobal t]
            else [.globalWatcherTop t])
  -- `restart_service_inner`
  | .restart run service noWait caller =>
      match w.runs[run]? with
      | none => (w, caller.resume)
      | some record =>
          match record.services[service]? with
          | none => (w, caller.resume)
          | some s =>
              let begun := (w.lock run (.beginRestart service env.now)).beginLaunch
                (.service run service)
              (begun, [.loadPostInit
                ⟨run, service, noWait, begun.launches (.service run service),
                  s.launch.unitName, caller⟩])
  | .loadPostInit r =>
      match env.loadPostInit with
      | .error _ => (w, r.caller.resume)
      | .ok _ => (w, [.restartUnit r])
  | .restartUnit r =>
      (w.unit .restart (.service r.run r.service) r.unitName,
        match env.unit with
        | .error _ => r.caller.resume
        | .ok _ => [.restarted r])
  | .restarted r =>
      (w.lock r.run (.restarted r.service env.now),
        if r.noWait then
          [.persist r.run (.restarted r.caller), .waitReadiness r.run r.service r.launch]
        else [.waitRestart r])
  | .waitRestart r =>
      match w.runs[r.run]? with
      | none => (w, r.caller.resume)
      | some _ =>
          let delivered := deliver w r.run r.service env.now env.readiness
          (delivered.1, .persist r.run (.restarted r.caller) :: delivered.2)
  -- `spawn_readiness_task`
  | .waitReadiness run service _ =>
      let delivered := deliver w run service env.now env.readiness
      (delivered.1, .persist run .finish :: delivered.2)
  -- `start_health_monitor`
  | .monitorInit run service =>
      match (w.runs[run]?).bind (fun r => r.services[service]?) with
      | none => (w, [])
      | some record =>
          match record.handles.health with
          | none => (w, [])
          | some handle =>
              (w, [.monitorTop
                ⟨run, service, handle, .start record.spec.readiness (monitorContext record)⟩])
  | .monitorTop m => if m.handle ∈ w.raised then (w, []) else (w, [.monitorSlept m])
  | .monitorSlept m => if m.handle ∈ w.raised then (w, []) else (w, [.monitorProbe m])
  | .monitorProbe m =>
      let ok := m.monitor.probe env.engine env.obs
      let counted := m.monitor.count ok env.now
      let change := counted.transition ok
      let events :=
        match w.runs[m.run]? with
        | some run => (applyTransition m.run m.service env.now change run).2
        | none => []
      let restart := shouldRestart change events counted.restartCount
      let counted :=
        if restart then { counted with restartCount := counted.restartCount + 1 } else counted
      (w.lock m.run (.transition m.service env.now change),
        if events = [] then [.monitorTop { m with monitor := counted }]
        else [.persist m.run (.monitorTurn { m with monitor := counted } restart)])
  | .monitorLimit m =>
      (w.lock m.run (.markFailed m.service env.now healthRestartLimitExceeded),
        [.persist m.run .finish])
  -- `reconcile_run`
  | .status run k =>
      match w.runs[run]? with
      | none => (w, k.resume (.error s!"run {run} not found"))
      | some copy => (w, [.writeStatus run copy k])
  | .writeStatus run copy k =>
      match w.runs[run]? with
      | none => (w, k.resume (.error s!"run {run} not found"))
      | some record =>
          let status := buildStatus env.unitStatus copy
          (w.lock run (.reconcile status),
            if reconcileChanged status record then [.persist run k] else k.resume (.ok ()))
  | .listRuns => (w, (Cont.statusRest w.runs.keys).resume (.ok ()))
  -- `ensure_globals`
  | .ensureGlobals [] caller => (w, caller.resume (.ok ()))
  | .ensureGlobals (target :: rest) caller =>
      (w, [.checkGlobal target (w.globalManifests[target.key]?) rest caller])
  | .checkGlobal target existing rest caller =>
      match env.global with
      | .error err => (w, caller.resume (.error err))
      | .ok (prepared, true) =>
          (w.upsertGlobal (activeGlobal env target prepared existing),
            [.persistGlobal target.key (.globalPersisted target.key none rest caller)])
      | .ok (prepared, false) =>
          (w, [.startGlobal target prepared ((existing.map (·.createdAt)).getD env.now) rest
            caller])
  | .startGlobal target prepared createdAt rest caller =>
      let begun := (w.beginLaunch (.global target.key)).unit .start (.global target.key)
        prepared.unitName
      (begun, [.waitGlobal target prepared createdAt (begun.launches (.global target.key))
        env.unit rest caller])
  | .waitGlobal target prepared createdAt _ start rest caller =>
      let stored := startedGlobal env target prepared createdAt start
      (w.upsertGlobal stored.1,
        [.persistGlobal target.key (.globalPersisted target.key stored.2 rest caller)])
  -- `restart_global_no_wait`
  | .restartGlobal t =>
      match w.globals[t.key]? with
      | none => (w, [.globalWatcherTop t])
      | some global =>
          let begun := (w.lockGlobal t.key (.beginRestart env.now)).beginLaunch (.global t.key)
          (begun, [.persistGlobalRestart t global.service.launch.unitName
            (begun.launches (.global t.key))])
  | .persistGlobalRestart t unitName launch =>
      match w.globals[t.key]? with
      | some global => (w, [.writeGlobalRestart (persistedGlobal global) t unitName launch])
      | none => (w, [.globalWatcherTop t])
  | .writeGlobalRestart manifest t unitName launch =>
      match env.writeManifest with
      | .error _ => (w, [.globalWatcherTop t])
      | .ok _ =>
          ({ w with globalManifests := w.globalManifests.insert manifest.key manifest },
            [.restartGlobalUnit t unitName launch])
  | .restartGlobalUnit t unitName launch =>
      (w.unit .restart (.global t.key) unitName,
        match env.unit with
        | .error _ => [.globalWatcherTop t]
        | .ok _ => [.globalWatcherTop t, .waitGlobalRestart t.key launch])
  | .waitGlobalRestart key _ =>
      (w.lockGlobal key
          (match env.readiness with
            | .ok _ => .markReady
            | .error reason => .markFailed reason),
        [.persistGlobal key .finish])
  -- `up`
  | .up request =>
      match env.requested with
      | .error _ => (w, [])
      | .ok (plan, configDir, globals) =>
          let job (runId : String) (force creates : Bool) : UpJob :=
            { runId := runId
              plan := plan
              projectDir := request.projectDir
              configDir := configDir
              globals := globals
              noWait := request.noWait
              force := force
              existing := ∅
              creates := creates }
          let latest :=
            if request.newRun = false ∧ request.runId = none then
              findLatestRunForProjectStack env.canonical w request.projectDir request.stack
            else none
          match latest with
          | some runId => (w, [.refresh (job runId request.force false)])
          | none =>
              match env.ports with
              | .error _ => (w, [])
              | .ok _ =>
                  let job := job (request.runId.getD env.newRunId) false true
                  (w, [.ensureGlobals job.globals (.up job)])
  -- `refresh_run`
  | .refresh job =>
      match w.runs[job.runId]? with
      | none => (w, [])
      | some run =>
          let removed := removedServices run job.plan
          (w, [.stopRemoved { job with existing := existingServices run } removed removed])
  | .stopRemoved job removed [] => (w, [.removeMissing job removed])
  | .stopRemoved job removed (name :: todo) =>
      (w.unit .stop (.service job.runId name) (unitNameForRun job.runId name),
        [.stopRemoved job removed todo])
  | .removeMissing job removed =>
      let removedWorld := if removed = [] then w else w.lock job.runId (.removeMissing removed)
      (removedWorld,
        if removed ≠ [] ∧ w.runs[job.runId]? = none then []
        else
          match env.ports with
          | .error _ => []
          | .ok _ => [.ensureGlobals job.globals (.up job)])
  | .openRun job =>
      match env.baseEnv, w.runs[job.runId]? with
      | .error _, _ => (w, [])
      | .ok baseEnv, some _ =>
          -- a new run finds its id taken; a refresh goes on with its run
          if job.creates then (w, [])
          else
            (w.lock job.runId (.updateResources baseEnv), [.launchNext job job.plan.order])
      | .ok baseEnv, none =>
          if job.creates then
            (w.createRun (.new job.runId job.plan.name job.projectDir job.configDir baseEnv env.now),
              [.launchNext job job.plan.order])
          else (w, [])
  -- `launch_services` and `launch_service`
  | .launchNext job [] => (w, [.finalize job])
  | .launchNext job (name :: rest) =>
      match job.plan.services[name]?, env.prepared with
      | some service, .ok prepared =>
          if job.existing.isEmpty = false
              ∧ serviceNeedsRestart job.force job.existing name prepared = false then
            (w, [.applyUnchanged job prepared name rest])
          else
            match service.init, env.init with
            | some (_ :: _), .error err => (w, [.storeFailedInit job prepared err name rest])
            | _, _ => (w, [.startUnit job prepared name rest])
      | _, _ => (w, [])
  | .applyUnchanged job prepared name rest =>
      match w.runs[job.runId]? with
      | none => (w, [])
      | some _ =>
          (w.lock job.runId (.applyPrepared name prepared),
            [.syncWatcher job.runId name (.unchangedSynced job name rest)])
  | .storeFailedInit job prepared error name rest =>
      match w.runs[job.runId]? with
      | none => (w, [])
      | some _ =>
          (w.lock job.runId (.store name (failedInitRecord prepared error)),
            [.syncWatcher job.runId name (.launchRest job rest)])
  | .startUnit job prepared name rest =>
      let key := Key.service job.runId name
      let stopped :=
        if job.existing.contains name then w.unit .stop key prepared.unitName else w
      let begun := (stopped.unit .start key prepared.unitName).beginLaunch key
      match releasesPrevious job.existing name prepared, env.ports with
      | true, .error _ => (begun, [])
      | _, _ => (begun, [.storeResult job prepared (begun.launches key) env.unit name rest])
  | .storeResult job prepared launch start name rest =>
      match w.runs[job.runId]? with
      | none => (w, [])
      | some _ =>
          (w.lock job.runId (.store name (launchResultRecord prepared start env.now)),
            [.syncWatcher job.runId name (.launched job prepared launch start name rest)])
  | .proxyFailed job _ name reason =>
      match w.runs[job.runId]? with
      | none => (w, [])
      | some _ =>
          (w.lock job.runId (.markFailed name env.now reason), [.persist job.runId .finish])
  | .handleReadiness job launch name rest =>
      if job.noWait then (w, [.launchNext job rest, .waitReadiness job.runId name launch])
      else
        match w.runs[job.runId]? with
        | none => (w, [])
        | some _ =>
            let delivered := deliver w job.runId name env.now env.readiness
            (delivered.1,
              match env.readiness with
              | .ok _ => .launchNext job rest :: delivered.2
              | .error _ => .persist job.runId .finish :: delivered.2)
  | .finalize job =>
      match w.runs[job.runId]? with
      | none => (w, [])
      | some _ => (w.lock job.runId .recompute, [.persist job.runId .finish])
  -- `down` and `kill`
  | .stopHandles run kill purges => (w.lock run .stopHandles, [.listServices run kill purges])
  | .listServices run kill purges =>
      match w.runs[run]? with
      | none => (w, [])
      | some record => (w, [.stopUnits run kill purges record.services.keys])
  | .stopUnits run _ purges [] => (w, [.releasePorts run purges])
  | .stopUnits run kill purges (name :: todo) =>
      let key := Key.service run name
      let killed := if kill then w.unit .kill key (unitNameForRun run name) else w
      (killed.unit .stop key (unitNameForRun run name), [.stopUnits run kill purges todo])
  | .releasePorts run purges =>
      match env.ports with
      | .error _ => (w, [])
      | .ok _ => (w, [.markStopped run purges])
  | .markStopped run purges =>
      match w.runs[run]? with
      | none => (w, [])
      | some _ => (w.lock run (.stopAll env.now), [.persist run (.stopped run purges)])
  | .purge run =>
      ({ w with runs := w.runs.erase run, manifests := w.manifests.erase run }, [])
  -- `pause_watch` and `resume_watch`
  | .pauseWatch run service =>
      match w.runs[run]? with
      | none => (w, [])
      | some record =>
          match watchTargets record service with
          | .error _ => (w, [])
          | .ok _ => (setPausedStep w run record service true, [])
  | .resumeWatch run service =>
      match w.runs[run]? with
      | none => (w, [])
      | some record =>
          match watchTargets record service with
          | .error _ => (w, [])
          | .ok targets =>
              (setPausedStep w run record service false,
                (Cont.resumeRest run targets).resume (.ok ()))
  -- `run_gc`
  | .gc =>
      ({ w with
          runs := w.runs.filter (fun _ run => !gcRemoves env.expired run)
          manifests := w.manifests.filter (fun runId _ =>
            match w.runs[runId]? with
            | some run => !gcRemoves env.expired run
            | none => true) }, [])
  -- the daemon's start
  | .boot [] => ({ w with serving := true }, [])
  | .boot (.ensureGlobal target :: jobs) =>
      (w, [.ensureGlobals [target] (.boot target.key jobs)])
  | .boot (.capture run service :: jobs) => (w, [.syncCapture run service (.boot jobs)])
  | .boot (.watcher run service :: jobs) => (w, [.syncWatcher run service (.boot jobs)])
  | .boot (.globalWatcher key :: jobs) => (w, [.syncGlobalWatcher key (.boot jobs)])

section Equations

-- one for each task, made here for all modules
attribute [local simp] Task.step

end Equations

end DevstackTasks
