import Devstack.Daemon.Tasks

/-! # Effects — a step as a list of accesses

    What the step of a task does to the world, as the accesses it makes one after
    the other: a locked step on a run or a global, a manifest written, a flag
    raised.  `step_world` says that these are the whole step, so that a property
    of the world is checked once for each kind of access. -/

namespace DevstackEffects

open DevstackModel DevstackStores DevstackReadiness DevstackHealth DevstackConfig DevstackLaunch
open DevstackStatus DevstackLocked DevstackWorld DevstackTasks

inductive Effect where
  | lock (run : String) (op : RunOp)
  | lockGlobal (key : String) (op : GlobalOp)
  | upsertGlobal (global : GlobalRecord)
  | createRun (run : RunRecord)
  | raise (handle : HandleId)
  | storePaused (handle : HandleId) (value : Bool)
  | allocate
  | unit (action : UnitAction) (owner : Key) (unitName : String)
  | beginLaunch (key : Key)
  | writeManifest (manifest : PersistedRun)
  | writeGlobalManifest (manifest : PersistedGlobal)
  | purge (run : String)
  | collect (expired : String → Bool)
  | serve

/-- The world after one access. -/
def Effect.apply (w : World) : Effect → World
  | .lock run op => w.lock run op
  | .lockGlobal key op => w.lockGlobal key op
  | .upsertGlobal global => w.upsertGlobal global
  | .createRun run => w.createRun run
  | .raise handle => w.raise handle
  | .storePaused handle value => w.storePaused handle value
  | .allocate => w.allocate
  | .unit action owner unitName => w.unit action owner unitName
  | .beginLaunch key => w.beginLaunch key
  | .writeManifest manifest =>
      { w with manifests := w.manifests.insert manifest.runId manifest }
  | .writeGlobalManifest manifest =>
      { w with globalManifests := w.globalManifests.insert manifest.key manifest }
  | .purge run => { w with runs := w.runs.erase run, manifests := w.manifests.erase run }
  | .collect expired =>
      { w with
        runs := w.runs.filter (fun _ run => !gcRemoves expired run)
        manifests := w.manifests.filter (fun runId _ =>
          match w.runs[runId]? with
          | some run => !gcRemoves expired run
          | none => true) }
  | .serve => { w with serving := true }

/-- The accesses of `mark_service_ready`. -/
def markReadyEffects (w : World) (run service now : String) : List Effect :=
  .lock run (.markReady service now w.nextHandle)
    :: match (w.runs[run]?).bind (fun r => r.services[service]?) with
      | some record => if needsMonitor record then [.allocate] else []
      | none => []

/-- The accesses after a readiness wait. -/
def deliverEffects (w : World) (run service now : String) (result : Except String Unit) :
    List Effect :=
  match result with
  | .ok _ => markReadyEffects w run service now
  | .error reason => [.lock run (.markFailed service now reason)]

/-- The accesses of `pause_watch` and `resume_watch`. -/
def setPausedEffects (runId : String) (run : RunRecord) (service : Option String)
    (value : Bool) : List Effect :=
  .lock runId (.setWatchPaused service value)
    :: (pausableHandles run service).map (fun handle => .storePaused handle value)

/-- The accesses of a task's step. -/
def effects (env : Env) (w : World) : Task → List Effect
  | .write manifest _ =>
      match env.writeManifest with
      | .error _ => []
      | .ok _ => [.writeManifest manifest]
  | .writeGlobal manifest _ | .writeGlobalRestart manifest _ _ _ =>
      match env.writeManifest with
      | .error _ => []
      | .ok _ => [.writeGlobalManifest manifest]
  | .syncWatcher run service _ =>
      match (w.runs[run]?).bind (fun r => r.services[service]?) with
      | none => []
      | some record =>
          match watchSync record with
          | .off => [.lock run (.syncWatcher service)]
          | .keep handle paused => [.storePaused handle paused]
          | .start paused =>
              match env.watcher with
              | .error _ => []
              | .ok _ => [.allocate, .storePaused w.nextHandle paused]
  | .keepWatcher t _ =>
      match (w.runs[t.run]?).bind (fun r => r.services[t.service]?) with
      | none => [.raise t.handle]
      | some record =>
          .lock t.run (.keepWatcher t.service t.handle)
            :: if watchSyncKeeps record then [.storePaused t.handle record.runtime.watchPaused]
              else []
  | .syncGlobalWatcher key _ =>
      match w.globals[key]? with
      | none => []
      | some global =>
          match watchSync global.service with
          | .off => [.lockGlobal key .syncWatcher]
          | .keep handle paused => [.storePaused handle paused]
          | .start paused =>
              match env.watcher with
              | .error _ => []
              | .ok _ => [.allocate, .storePaused w.nextHandle paused]
  | .keepGlobalWatcher t _ =>
      match w.globals[t.key]? with
      | none => [.raise t.handle]
      | some global =>
          .lockGlobal t.key (.keepWatcher t.handle)
            :: if watchSyncKeeps global.service then
                [.storePaused t.handle global.service.runtime.watchPaused]
              else []
  | .syncCapture run service _ =>
      match (w.runs[run]?).bind (fun r => r.services[service]?) with
      | none => []
      | some _ => [.lock run (.syncCapture service)]
  | .keepCapture run service _ =>
      match env.capture, w.runs[run]? with
      | .ok _, some record =>
          match record.services[service]? with
          | none => [.allocate, .raise w.nextHandle]
          | some _ => [.allocate, .lock run (.keepCapture service w.nextHandle)]
      | _, _ => []
  | .watcherCompare t hash =>
      match (w.runs[t.run]?).bind (fun r => r.services[t.service]?) with
      | none => []
      | some record =>
          [.lock t.run (.compareHash t.service hash),
            .storePaused t.handle record.runtime.watchPaused]
  | .globalWatcherCompare t hash =>
      match w.globals[t.key]? with
      | none => []
      | some global =>
          [.lockGlobal t.key (.compareHash hash),
            .storePaused t.handle global.service.runtime.watchPaused]
  | .restart run service _ _ =>
      match w.runs[run]? with
      | none => []
      | some record =>
          match record.services[service]? with
          | none => []
          | some _ => [.lock run (.beginRestart service env.now), .beginLaunch (.service run service)]
  | .restartUnit r => [.unit .restart (.service r.run r.service) r.unitName]
  | .restarted r => [.lock r.run (.restarted r.service env.now)]
  | .waitRestart r =>
      match w.runs[r.run]? with
      | none => []
      | some _ => deliverEffects w r.run r.service env.now env.readiness
  | .waitReadiness run service _ => deliverEffects w run service env.now env.readiness
  | .monitorProbe m =>
      let ok := m.monitor.probe env.engine env.obs
      [.lock m.run (.transition m.service env.now ((m.monitor.count ok env.now).transition ok))]
  | .monitorLimit m =>
      [.lock m.run (.markFailed m.service env.now healthRestartLimitExceeded)]
  | .writeStatus run copy _ =>
      match w.runs[run]? with
      | none => []
      | some _ => [.lock run (.reconcile (buildStatus env.unitStatus copy))]
  | .checkGlobal target existing _ _ =>
      match env.global with
      | .ok (prepared, true) => [.upsertGlobal (activeGlobal env target prepared existing)]
      | _ => []
  | .startGlobal target prepared _ _ _ =>
      [.beginLaunch (.global target.key), .unit .start (.global target.key) prepared.unitName]
  | .waitGlobal target prepared createdAt _ start _ _ =>
      [.upsertGlobal (startedGlobal env target prepared createdAt start).1]
  | .restartGlobal t =>
      match w.globals[t.key]? with
      | none => []
      | some _ => [.lockGlobal t.key (.beginRestart env.now), .beginLaunch (.global t.key)]
  | .restartGlobalUnit t unitName _ => [.unit .restart (.global t.key) unitName]
  | .waitGlobalRestart key _ =>
      [.lockGlobal key
        (match env.readiness with
          | .ok _ => .markReady
          | .error reason => .markFailed reason)]
  | .stopRemoved job _ (name :: _) =>
      [.unit .stop (.service job.runId name) (unitNameForRun job.runId name)]
  | .removeMissing job removed =>
      if removed = [] then [] else [.lock job.runId (.removeMissing removed)]
  | .openRun job =>
      match env.baseEnv, w.runs[job.runId]? with
      | .error _, _ => []
      | .ok baseEnv, some _ =>
          if job.creates then [] else [.lock job.runId (.updateResources baseEnv)]
      | .ok baseEnv, none =>
          if job.creates then
            [.createRun
              (.new job.runId job.plan.name job.projectDir job.configDir baseEnv env.now)]
          else []
  | .applyUnchanged job prepared name _ =>
      match w.runs[job.runId]? with
      | none => []
      | some _ => [.lock job.runId (.applyPrepared name prepared)]
  | .storeFailedInit job prepared error name _ =>
      match w.runs[job.runId]? with
      | none => []
      | some _ => [.lock job.runId (.store name (failedInitRecord prepared error))]
  | .startUnit job prepared name _ =>
      let key := Key.service job.runId name
      (if job.existing.contains name then [Effect.unit .stop key prepared.unitName] else [])
        ++ [.unit .start key prepared.unitName, .beginLaunch key]
  | .storeResult job prepared _ start name _ =>
      match w.runs[job.runId]? with
      | none => []
      | some _ => [.lock job.runId (.store name (launchResultRecord prepared start env.now))]
  | .proxyFailed job _ name reason =>
      match w.runs[job.runId]? with
      | none => []
      | some _ => [.lock job.runId (.markFailed name env.now reason)]
  | .handleReadiness job _ name _ =>
      if job.noWait then []
      else
        match w.runs[job.runId]? with
        | none => []
        | some _ => deliverEffects w job.runId name env.now env.readiness
  | .finalize job =>
      match w.runs[job.runId]? with
      | none => []
      | some _ => [.lock job.runId .recompute]
  | .stopHandles run _ _ => [.lock run .stopHandles]
  | .stopUnits run kill _ (name :: _) =>
      let key := Key.service run name
      (if kill then [Effect.unit .kill key (unitNameForRun run name)] else [])
        ++ [.unit .stop key (unitNameForRun run name)]
  | .markStopped run _ =>
      match w.runs[run]? with
      | none => []
      | some _ => [.lock run (.stopAll env.now)]
  | .purge run => [.purge run]
  | .pauseWatch run service =>
      match w.runs[run]? with
      | none => []
      | some record =>
          match watchTargets record service with
          | .error _ => []
          | .ok _ => setPausedEffects run record service true
  | .resumeWatch run service =>
      match w.runs[run]? with
      | none => []
      | some record =>
          match watchTargets record service with
          | .error _ => []
          | .ok _ => setPausedEffects run record service false
  | .gc => [.collect env.expired]
  | .boot [] => [.serve]
  | _ => []

theorem deliver_world (w : World) (run service now : String) (result : Except String Unit) :
    (deliver w run service now result).1
      = (deliverEffects w run service now result).foldl Effect.apply w := by
  cases result with
  | error reason => rfl
  | ok _ =>
      simp only [deliver, deliverEffects, markReadyStep, markReadyEffects]
      cases hrecord : (w.runs[run]?).bind (fun r => r.services[service]?) with
      | some record => cases hneeds : needsMonitor record <;> simp [hneeds, Effect.apply]
      | none => rfl

theorem setPaused_world (w : World) (runId : String) (run : RunRecord) (service : Option String)
    (value : Bool) :
    setPausedStep w runId run service value
      = (setPausedEffects runId run service value).foldl Effect.apply w := by
  rw [setPausedStep, setPausedEffects, List.foldl_cons, List.foldl_map]
  rfl

section Step

-- its equations, made here for all families
attribute [local simp] effects

variable (env : Env) (w : World) {t : Task}

/-- `app/runtime.rs`. -/
theorem world_manifests (hf : t.family = .manifests) :
    (t.step env w).1 = (effects env w t).foldl Effect.apply w := by
  cases t with
  | write manifest k | writeGlobal manifest k =>
      simp only [Task.step, effects]
      cases hwrite : env.writeManifest <;> rfl
  | persist run k | persistGlobal key k =>
      simp only [Task.step, effects]
      split <;> rfl
  | _ => cases hf

/-- `launch/watch.rs`. -/
theorem world_watch (hf : t.family = .watch) :
    (t.step env w).1 = (effects env w t).foldl Effect.apply w := by
  cases t with
  | syncWatcher run service k =>
      simp only [Task.step, effects]
      cases hget : (w.runs[run]?).bind (fun r => r.services[service]?) with
      | none => rfl
      | some record =>
          cases hsync : watchSync record with
          | off => simp [hsync, Effect.apply]
          | keep handle paused => simp [hsync, Effect.apply]
          | start paused => cases hwatcher : env.watcher <;> simp [hsync, Effect.apply]
  | syncGlobalWatcher key k =>
      simp only [Task.step, effects]
      cases hget : w.globals[key]? with
      | none => rfl
      | some global =>
          cases hsync : watchSync global.service with
          | off => simp [hsync, Effect.apply]
          | keep handle paused => simp [hsync, Effect.apply]
          | start paused => cases hwatcher : env.watcher <;> simp [hsync, Effect.apply]
  | keepWatcher t k =>
      simp only [Task.step, effects]
      cases hget : (w.runs[t.run]?).bind (fun r => r.services[t.service]?) with
      | none => rfl
      | some record => cases hkeeps : watchSyncKeeps record <;> simp [hkeeps, Effect.apply]
  | keepGlobalWatcher t k =>
      simp only [Task.step, effects]
      cases hget : w.globals[t.key]? with
      | none => rfl
      | some global =>
          cases hkeeps : watchSyncKeeps global.service <;> simp [hkeeps, Effect.apply]
  | keepCapture run service k =>
      simp only [Task.step, effects]
      cases hcapture : env.capture with
      | error err => rfl
      | ok u =>
          cases hrun : w.runs[run]? with
          | none => rfl
          | some record => cases hget : record.services[service]? <;> simp [hget, Effect.apply]
  | watcherEvent t | globalWatcherEvent t =>
      simp only [Task.step, effects]
      split
      · rfl
      · rfl
      · split
        · rfl
        · split <;> rfl
  | syncCapture run service k =>
      simp only [Task.step, effects]
      cases hget : (w.runs[run]?).bind (fun r => r.services[service]?) <;> rfl
  | watcherCompare t hash =>
      simp only [Task.step, effects]
      cases hget : (w.runs[t.run]?).bind (fun r => r.services[t.service]?) <;> rfl
  | globalWatcherCompare t hash =>
      simp only [Task.step, effects]
      cases hget : w.globals[t.key]? <;> rfl
  | watcherTop t | globalWatcherTop t =>
      simp only [Task.step, effects]
      split <;> rfl
  | _ => cases hf

/-- `commands/restart.rs`. -/
theorem world_restart (hf : t.family = .restart) :
    (t.step env w).1 = (effects env w t).foldl Effect.apply w := by
  cases t with
  | restart run service noWait caller =>
      simp only [Task.step, effects]
      cases hrun : w.runs[run]? with
      | none => rfl
      | some record => cases hget : record.services[service]? <;> simp [hget, Effect.apply]
  | waitRestart r =>
      simp only [Task.step, effects]
      cases hrun : w.runs[r.run]? with
      | none => rfl
      | some record => exact deliver_world ..
  | loadPostInit r =>
      simp only [Task.step, effects]
      split <;> rfl
  | restartUnit r | restarted r => rfl
  | _ => cases hf

/-- `launch/readiness.rs`. -/
theorem world_readiness (hf : t.family = .readiness) :
    (t.step env w).1 = (effects env w t).foldl Effect.apply w := by
  cases t with
  | waitReadiness run service launch => exact deliver_world ..
  | monitorInit run service =>
      simp only [Task.step, effects]
      split
      · rfl
      · split <;> rfl
  | monitorTop m | monitorSlept m =>
      simp only [Task.step, effects]
      split <;> rfl
  | monitorProbe m | monitorLimit m => rfl
  | _ => cases hf

/-- `commands/reconcile.rs`. -/
theorem world_reconcile (hf : t.family = .reconcile) :
    (t.step env w).1 = (effects env w t).foldl Effect.apply w := by
  cases t with
  | writeStatus run copy k =>
      simp only [Task.step, effects]
      cases hrun : w.runs[run]? <;> rfl
  | status run k =>
      simp only [Task.step, effects]
      split <;> rfl
  | listRuns => rfl
  | _ => cases hf

/-- `commands/ensure_globals.rs`. -/
theorem world_globals (hf : t.family = .globals) :
    (t.step env w).1 = (effects env w t).foldl Effect.apply w := by
  cases t with
  | ensureGlobals todo caller => cases todo <;> rfl
  | checkGlobal target existing rest caller =>
      simp only [Task.step, effects]
      rcases hglobal : env.global with err | ⟨prepared, active⟩
      · rfl
      · cases active <;> rfl
  | writeGlobalRestart manifest t unitName launch =>
      simp only [Task.step, effects]
      cases hwrite : env.writeManifest <;> rfl
  | restartGlobal t =>
      simp only [Task.step, effects]
      cases hget : w.globals[t.key]? <;> rfl
  | persistGlobalRestart t unitName launch =>
      simp only [Task.step, effects]
      split <;> rfl
  | startGlobal target prepared createdAt rest caller
  | waitGlobal target prepared createdAt launch start rest caller
  | restartGlobalUnit t unitName launch | waitGlobalRestart key launch => rfl
  | _ => cases hf

/-- `up` and `refresh_run`, before the first launch. -/
theorem world_opening (hf : t.family = .opening) :
    (t.step env w).1 = (effects env w t).foldl Effect.apply w := by
  cases t with
  | up request =>
      simp only [Task.step, effects]
      split
      · rfl
      · split
        · rfl
        · split <;> rfl
  | stopRemoved job removed todo => cases todo <;> rfl
  | removeMissing job removed =>
      simp only [Task.step, effects]
      split <;> rfl
  | openRun job =>
      simp only [Task.step, effects]
      cases hbase : env.baseEnv with
      | error err => rfl
      | ok baseEnv =>
          cases hrun : w.runs[job.runId]? <;> cases hcreates : job.creates <;> rfl
  | refresh job =>
      simp only [Task.step, effects]
      split <;> rfl
  | _ => cases hf

/-- `up` and `refresh_run`, from the first launch on. -/
theorem world_launching (hf : t.family = .launching) :
    (t.step env w).1 = (effects env w t).foldl Effect.apply w := by
  cases t with
  | launchNext job todo =>
      cases todo with
      | nil => rfl
      | cons name rest =>
          simp only [Task.step, effects]
          split
          · split
            · rfl
            · split <;> rfl
          · rfl
  | startUnit job prepared name rest =>
      simp only [Task.step, effects]
      cases hexists : job.existing.contains name <;> split <;> simp [Effect.apply]
  | handleReadiness job launch name rest =>
      simp only [Task.step, effects]
      cases hnowait : job.noWait with
      | true => rfl
      | false =>
          cases hrun : w.runs[job.runId]? with
          | none => rfl
          | some record => exact deliver_world ..
  | applyUnchanged job prepared name rest | storeFailedInit job prepared error name rest
  | storeResult job prepared launch start name rest | proxyFailed job launch name reason
  | finalize job =>
      simp only [Task.step, effects]
      cases hrun : w.runs[job.runId]? <;> rfl
  | _ => cases hf

/-- `down` and `kill`. -/
theorem world_stopping (hf : t.family = .stopping) :
    (t.step env w).1 = (effects env w t).foldl Effect.apply w := by
  cases t with
  | stopUnits run kill purges todo =>
      cases todo with
      | nil => rfl
      | cons name todo => cases kill <;> rfl
  | markStopped run purges =>
      simp only [Task.step, effects]
      cases hrun : w.runs[run]? <;> rfl
  | listServices run kill purges | releasePorts run purges =>
      simp only [Task.step, effects]
      split <;> rfl
  | stopHandles run kill purges | purge run => rfl
  | _ => cases hf

/-- Pausing, `gc` and the start of the daemon. -/
theorem world_control (hf : t.family = .control) :
    (t.step env w).1 = (effects env w t).foldl Effect.apply w := by
  cases t with
  | pauseWatch run service =>
      simp only [Task.step, effects]
      cases hrun : w.runs[run]? with
      | none => rfl
      | some record =>
          cases htargets : watchTargets record service with
          | error err => simp [htargets]
          | ok targets => simp [htargets, setPaused_world]
  | resumeWatch run service =>
      simp only [Task.step, effects]
      cases hrun : w.runs[run]? with
      | none => rfl
      | some record =>
          cases htargets : watchTargets record service with
          | error err => simp [htargets]
          | ok targets => simp [htargets, setPaused_world]
  | boot jobs =>
      cases jobs with
      | nil => rfl
      | cons job jobs => cases job <;> rfl
  | gc => rfl
  | _ => cases hf

/-- **THE ACCESSES ARE THE STEP.** -/
theorem step_world (t : Task) : (t.step env w).1 = (effects env w t).foldl Effect.apply w := by
  cases hf : t.family with
  | manifests => exact world_manifests env w hf
  | watch => exact world_watch env w hf
  | restart => exact world_restart env w hf
  | readiness => exact world_readiness env w hf
  | reconcile => exact world_reconcile env w hf
  | globals => exact world_globals env w hf
  | opening => exact world_opening env w hf
  | launching => exact world_launching env w hf
  | stopping => exact world_stopping env w hf
  | control => exact world_control env w hf

end Step

/-! ## Which task makes which access -/

/-- Accesses to neither a run's record nor a flag that stops a task. -/
def Effect.aside : Effect → Bool
  | .storePaused .. | .unit .. | .beginLaunch _ | .writeGlobalManifest _ | .serve => true
  | _ => false

/-- The other accesses of a task, one constructor for each place in the source. -/
inductive Makes (env : Env) (w : World) : Task → Effect → Prop where
  | aside (t : Task) {e : Effect} (h : e.aside = true) : Makes env w t e
  | write (manifest : PersistedRun) (k : Cont) :
      Makes env w (.write manifest k) (.writeManifest manifest)
  | syncWatcher (run service : String) (k : Cont) :
      Makes env w (.syncWatcher run service k) (.lock run (.syncWatcher service))
  | syncWatcherStart (run service : String) (k : Cont) :
      Makes env w (.syncWatcher run service k) .allocate
  | keepWatcher (t : WatcherTask) (k : Cont) :
      Makes env w (.keepWatcher t k) (.lock t.run (.keepWatcher t.service t.handle))
  | keepWatcherGone (t : WatcherTask) (k : Cont) :
      Makes env w (.keepWatcher t k) (.raise t.handle)
  | syncGlobalWatcher (key : String) (k : Cont) :
      Makes env w (.syncGlobalWatcher key k) (.lockGlobal key .syncWatcher)
  | syncGlobalWatcherStart (key : String) (k : Cont) :
      Makes env w (.syncGlobalWatcher key k) .allocate
  | keepGlobalWatcher (t : GlobalWatcherTask) (k : Cont) :
      Makes env w (.keepGlobalWatcher t k) (.lockGlobal t.key (.keepWatcher t.handle))
  | keepGlobalWatcherGone (t : GlobalWatcherTask) (k : Cont) :
      Makes env w (.keepGlobalWatcher t k) (.raise t.handle)
  | syncCapture (run service : String) (k : Cont) :
      Makes env w (.syncCapture run service k) (.lock run (.syncCapture service))
  | keepCaptureStart (run service : String) (k : Cont) :
      Makes env w (.keepCapture run service k) .allocate
  | keepCapture (run service : String) (k : Cont) :
      Makes env w (.keepCapture run service k) (.lock run (.keepCapture service w.nextHandle))
  | keepCaptureGone (run service : String) (k : Cont) :
      Makes env w (.keepCapture run service k) (.raise w.nextHandle)
  | watcherCompare (t : WatcherTask) (hash : String) :
      Makes env w (.watcherCompare t hash) (.lock t.run (.compareHash t.service hash))
  | globalWatcherCompare (t : GlobalWatcherTask) (hash : String) :
      Makes env w (.globalWatcherCompare t hash) (.lockGlobal t.key (.compareHash hash))
  | restart (run service : String) (noWait : Bool) (caller : Caller) :
      Makes env w (.restart run service noWait caller) (.lock run (.beginRestart service env.now))
  | restarted (r : Restarting) :
      Makes env w (.restarted r) (.lock r.run (.restarted r.service env.now))
  | waitRestart (r : Restarting) {e : Effect}
      (h : e ∈ deliverEffects w r.run r.service env.now env.readiness) :
      Makes env w (.waitRestart r) e
  | waitReadiness (run service : String) (launch : Nat) {e : Effect}
      (h : e ∈ deliverEffects w run service env.now env.readiness) :
      Makes env w (.waitReadiness run service launch) e
  | monitorProbe (m : MonitorTask) (change : Transition) :
      Makes env w (.monitorProbe m) (.lock m.run (.transition m.service env.now change))
  | monitorLimit (m : MonitorTask) :
      Makes env w (.monitorLimit m)
        (.lock m.run (.markFailed m.service env.now healthRestartLimitExceeded))
  | writeStatus (run : String) (copy : RunRecord) (k : Cont) :
      Makes env w (.writeStatus run copy k) (.lock run (.reconcile (buildStatus env.unitStatus copy)))
  | checkGlobal (target : GlobalTarget) (existing : Option PersistedGlobal)
      (rest : List GlobalTarget) (caller : GlobalsCaller) (prepared : PreparedService) :
      Makes env w (.checkGlobal target existing rest caller)
        (.upsertGlobal (activeGlobal env target prepared existing))
  | waitGlobal (target : GlobalTarget) (prepared : PreparedService) (createdAt : String)
      (launch : Nat) (start : Except String Unit) (rest : List GlobalTarget)
      (caller : GlobalsCaller) :
      Makes env w (.waitGlobal target prepared createdAt launch start rest caller)
        (.upsertGlobal (startedGlobal env target prepared createdAt start).1)
  | restartGlobal (t : GlobalWatcherTask) :
      Makes env w (.restartGlobal t) (.lockGlobal t.key (.beginRestart env.now))
  | globalReady (key : String) (launch : Nat) :
      Makes env w (.waitGlobalRestart key launch) (.lockGlobal key .markReady)
  | globalFailed (key : String) (launch : Nat) (reason : String) :
      Makes env w (.waitGlobalRestart key launch) (.lockGlobal key (.markFailed reason))
  | removeMissing (job : UpJob) (removed : List String) :
      Makes env w (.removeMissing job removed) (.lock job.runId (.removeMissing removed))
  | openRun (job : UpJob) (baseEnv : BTreeMap String) :
      Makes env w (.openRun job) (.lock job.runId (.updateResources baseEnv))
  | createRun (job : UpJob) (baseEnv : BTreeMap String) (hfree : w.runs[job.runId]? = none) :
      Makes env w (.openRun job)
        (.createRun (.new job.runId job.plan.name job.projectDir job.configDir baseEnv env.now))
  | applyUnchanged (job : UpJob) (prepared : PreparedService) (name : String)
      (rest : List String) :
      Makes env w (.applyUnchanged job prepared name rest)
        (.lock job.runId (.applyPrepared name prepared))
  | storeFailedInit (job : UpJob) (prepared : PreparedService) (error name : String)
      (rest : List String) :
      Makes env w (.storeFailedInit job prepared error name rest)
        (.lock job.runId (.store name (failedInitRecord prepared error)))
  | storeResult (job : UpJob) (prepared : PreparedService) (launch : Nat)
      (start : Except String Unit) (name : String) (rest : List String) :
      Makes env w (.storeResult job prepared launch start name rest)
        (.lock job.runId (.store name (launchResultRecord prepared start env.now)))
  | proxyFailed (job : UpJob) (launch : Nat) (name reason : String) :
      Makes env w (.proxyFailed job launch name reason)
        (.lock job.runId (.markFailed name env.now reason))
  | handleReadiness (job : UpJob) (launch : Nat) (name : String) (rest : List String)
      {e : Effect} (h : e ∈ deliverEffects w job.runId name env.now env.readiness) :
      Makes env w (.handleReadiness job launch name rest) e
  | finalize (job : UpJob) : Makes env w (.finalize job) (.lock job.runId .recompute)
  | stopHandles (run : String) (kill purge : Bool) :
      Makes env w (.stopHandles run kill purge) (.lock run .stopHandles)
  | markStopped (run : String) (purge : Bool) :
      Makes env w (.markStopped run purge) (.lock run (.stopAll env.now))
  | purge (run : String) : Makes env w (.purge run) (.purge run)
  | pauseWatch (run : String) (service : Option String) :
      Makes env w (.pauseWatch run service) (.lock run (.setWatchPaused service true))
  | resumeWatch (run : String) (service : Option String) :
      Makes env w (.resumeWatch run service) (.lock run (.setWatchPaused service false))
  | gc : Makes env w .gc (.collect env.expired)

/-- A delivered result accesses the record of its service, and allocates its monitor. -/
theorem mem_deliver {w : World} {run service now : String} {result : Except String Unit}
    {e : Effect} (h : e ∈ deliverEffects w run service now result) :
    (∃ handle, e = .lock run (.markReady service now handle))
      ∨ (∃ reason, e = .lock run (.markFailed service now reason)) ∨ e = .allocate := by
  cases result with
  | error reason => exact Or.inr (Or.inl ⟨reason, List.mem_singleton.mp h⟩)
  | ok _ =>
      rcases List.mem_cons.mp h with hlock | h
      · exact Or.inl ⟨_, hlock⟩
      · split at h
        · split at h
          · exact Or.inr (Or.inr (List.mem_singleton.mp h))
          · exact nomatch h
        · exact nomatch h

theorem makes_setPaused {env : Env} {w : World} {t : Task} {runId : String} {run : RunRecord}
    {service : Option String} {value : Bool} {e : Effect}
    (hlock : Makes env w t (.lock runId (.setWatchPaused service value)))
    (h : e ∈ setPausedEffects runId run service value) : Makes env w t e := by
  rcases List.mem_cons.mp h with rfl | h
  · exact hlock
  · obtain ⟨handle, -, rfl⟩ := List.mem_map.mp h
    exact .aside t rfl

section Families

variable {env : Env} {w : World} {t : Task} {e : Effect}

/-- `app/runtime.rs`. -/
theorem makes_manifests (hf : t.family = .manifests) (h : e ∈ effects env w t) :
    Makes env w t e := by
  cases t with
  | write manifest k =>
      simp only [effects] at h
      split at h
      · exact nomatch h
      · rw [List.mem_singleton.mp h]
        exact .write manifest k
  | writeGlobal manifest k =>
      simp only [effects] at h
      split at h
      · exact nomatch h
      · rw [List.mem_singleton.mp h]
        exact .aside _ rfl
  | persist run k | persistGlobal key k => exact nomatch h
  | _ => cases hf

/-- `launch/watch.rs`. -/
theorem makes_watch (hf : t.family = .watch) (h : e ∈ effects env w t) :
    Makes env w t e := by
  cases t with
  | syncWatcher run service k =>
      simp only [effects] at h
      split at h
      · exact nomatch h
      · split at h
        · rw [List.mem_singleton.mp h]
          exact .syncWatcher run service k
        · rw [List.mem_singleton.mp h]
          exact .aside _ rfl
        · split at h
          · exact nomatch h
          · rcases List.mem_cons.mp h with rfl | h
            · exact .syncWatcherStart run service k
            · rw [List.mem_singleton.mp h]
              exact .aside _ rfl
  | keepWatcher t k =>
      simp only [effects] at h
      split at h
      · rw [List.mem_singleton.mp h]
        exact .keepWatcherGone t k
      · rcases List.mem_cons.mp h with rfl | h
        · exact .keepWatcher t k
        · split at h
          · rw [List.mem_singleton.mp h]
            exact .aside _ rfl
          · exact nomatch h
  | syncGlobalWatcher key k =>
      simp only [effects] at h
      split at h
      · exact nomatch h
      · split at h
        · rw [List.mem_singleton.mp h]
          exact .syncGlobalWatcher key k
        · rw [List.mem_singleton.mp h]
          exact .aside _ rfl
        · split at h
          · exact nomatch h
          · rcases List.mem_cons.mp h with rfl | h
            · exact .syncGlobalWatcherStart key k
            · rw [List.mem_singleton.mp h]
              exact .aside _ rfl
  | keepGlobalWatcher t k =>
      simp only [effects] at h
      split at h
      · rw [List.mem_singleton.mp h]
        exact .keepGlobalWatcherGone t k
      · rcases List.mem_cons.mp h with rfl | h
        · exact .keepGlobalWatcher t k
        · split at h
          · rw [List.mem_singleton.mp h]
            exact .aside _ rfl
          · exact nomatch h
  | syncCapture run service k =>
      simp only [effects] at h
      split at h
      · exact nomatch h
      · rw [List.mem_singleton.mp h]
        exact .syncCapture run service k
  | keepCapture run service k =>
      simp only [effects] at h
      split at h
      · split at h
        · rcases List.mem_cons.mp h with rfl | h
          · exact .keepCaptureStart run service k
          · rw [List.mem_singleton.mp h]
            exact .keepCaptureGone run service k
        · rcases List.mem_cons.mp h with rfl | h
          · exact .keepCaptureStart run service k
          · rw [List.mem_singleton.mp h]
            exact .keepCapture run service k
      · exact nomatch h
  | watcherCompare t hash =>
      simp only [effects] at h
      split at h
      · exact nomatch h
      · rcases List.mem_cons.mp h with rfl | h
        · exact .watcherCompare t hash
        · rw [List.mem_singleton.mp h]
          exact .aside _ rfl
  | globalWatcherCompare t hash =>
      simp only [effects] at h
      split at h
      · exact nomatch h
      · rcases List.mem_cons.mp h with rfl | h
        · exact .globalWatcherCompare t hash
        · rw [List.mem_singleton.mp h]
          exact .aside _ rfl
  | watcherTop t | watcherEvent t | globalWatcherTop t | globalWatcherEvent t => exact nomatch h
  | _ => cases hf

/-- `commands/restart.rs`. -/
theorem makes_restart (hf : t.family = .restart) (h : e ∈ effects env w t) :
    Makes env w t e := by
  cases t with
  | restart run service noWait caller =>
      simp only [effects] at h
      split at h
      · exact nomatch h
      · split at h
        · exact nomatch h
        · rcases List.mem_cons.mp h with rfl | h
          · exact .restart run service noWait caller
          · rw [List.mem_singleton.mp h]
            exact .aside _ rfl
  | restartUnit r =>
      rw [List.mem_singleton.mp h]
      exact .aside _ rfl
  | restarted r =>
      rw [List.mem_singleton.mp h]
      exact .restarted r
  | waitRestart r =>
      simp only [effects] at h
      split at h
      · exact nomatch h
      · exact .waitRestart r h
  | loadPostInit r => exact nomatch h
  | _ => cases hf

/-- `launch/readiness.rs`. -/
theorem makes_readiness (hf : t.family = .readiness) (h : e ∈ effects env w t) :
    Makes env w t e := by
  cases t with
  | waitReadiness run service launch => exact .waitReadiness run service launch h
  | monitorProbe m =>
      rw [List.mem_singleton.mp h]
      exact .monitorProbe m _
  | monitorLimit m =>
      rw [List.mem_singleton.mp h]
      exact .monitorLimit m
  | monitorInit run service | monitorTop m | monitorSlept m => exact nomatch h
  | _ => cases hf

/-- `commands/reconcile.rs`. -/
theorem makes_reconcile (hf : t.family = .reconcile) (h : e ∈ effects env w t) :
    Makes env w t e := by
  cases t with
  | writeStatus run copy k =>
      simp only [effects] at h
      split at h
      · exact nomatch h
      · rw [List.mem_singleton.mp h]
        exact .writeStatus run copy k
  | status run k | listRuns => exact nomatch h
  | _ => cases hf

/-- `commands/ensure_globals.rs`. -/
theorem makes_globals (hf : t.family = .globals) (h : e ∈ effects env w t) :
    Makes env w t e := by
  cases t with
  | writeGlobalRestart manifest t unitName launch =>
      simp only [effects] at h
      split at h
      · exact nomatch h
      · rw [List.mem_singleton.mp h]
        exact .aside _ rfl
  | checkGlobal target existing rest caller =>
      simp only [effects] at h
      split at h
      · rw [List.mem_singleton.mp h]
        exact .checkGlobal target existing rest caller _
      · exact nomatch h
  | startGlobal target prepared createdAt rest caller =>
      rcases List.mem_cons.mp h with rfl | h
      · exact .aside _ rfl
      · rw [List.mem_singleton.mp h]
        exact .aside _ rfl
  | waitGlobal target prepared createdAt launch start rest caller =>
      rw [List.mem_singleton.mp h]
      exact .waitGlobal target prepared createdAt launch start rest caller
  | restartGlobal t =>
      simp only [effects] at h
      split at h
      · exact nomatch h
      · rcases List.mem_cons.mp h with rfl | h
        · exact .restartGlobal t
        · rw [List.mem_singleton.mp h]
          exact .aside _ rfl
  | restartGlobalUnit t unitName launch =>
      rw [List.mem_singleton.mp h]
      exact .aside _ rfl
  | waitGlobalRestart key launch =>
      rw [List.mem_singleton.mp h]
      split
      · exact .globalReady key launch
      · exact .globalFailed key launch _
  | ensureGlobals todo caller | persistGlobalRestart t unitName launch => exact nomatch h
  | _ => cases hf

/-- `up` and `refresh_run`, before the first launch. -/
theorem makes_opening (hf : t.family = .opening) (h : e ∈ effects env w t) :
    Makes env w t e := by
  cases t with
  | stopRemoved job removed todo =>
      cases todo with
      | nil => exact nomatch h
      | cons name todo =>
          rw [List.mem_singleton.mp h]
          exact .aside _ rfl
  | removeMissing job removed =>
      simp only [effects] at h
      split at h
      · exact nomatch h
      · rw [List.mem_singleton.mp h]
        exact .removeMissing job removed
  | openRun job =>
      simp only [effects] at h
      split at h
      · exact nomatch h
      · split at h
        · exact nomatch h
        · rw [List.mem_singleton.mp h]
          exact .openRun job _
      · next hfree =>
          split at h
          · rw [List.mem_singleton.mp h]
            exact .createRun job _ hfree
          · exact nomatch h
  | up request | refresh job => exact nomatch h
  | _ => cases hf

/-- `up` and `refresh_run`, from the first launch on. -/
theorem makes_launching (hf : t.family = .launching) (h : e ∈ effects env w t) :
    Makes env w t e := by
  cases t with
  | applyUnchanged job prepared name rest =>
      simp only [effects] at h
      split at h
      · exact nomatch h
      · rw [List.mem_singleton.mp h]
        exact .applyUnchanged job prepared name rest
  | storeFailedInit job prepared error name rest =>
      simp only [effects] at h
      split at h
      · exact nomatch h
      · rw [List.mem_singleton.mp h]
        exact .storeFailedInit job prepared error name rest
  | startUnit job prepared name rest =>
      simp only [effects] at h
      rcases List.mem_append.mp h with h | h
      · split at h
        · rw [List.mem_singleton.mp h]
          exact .aside _ rfl
        · exact nomatch h
      · rcases List.mem_cons.mp h with rfl | h
        · exact .aside _ rfl
        · rw [List.mem_singleton.mp h]
          exact .aside _ rfl
  | storeResult job prepared launch start name rest =>
      simp only [effects] at h
      split at h
      · exact nomatch h
      · rw [List.mem_singleton.mp h]
        exact .storeResult job prepared launch start name rest
  | proxyFailed job launch name reason =>
      simp only [effects] at h
      split at h
      · exact nomatch h
      · rw [List.mem_singleton.mp h]
        exact .proxyFailed job launch name reason
  | handleReadiness job launch name rest =>
      simp only [effects] at h
      split at h
      · exact nomatch h
      · split at h
        · exact nomatch h
        · exact .handleReadiness job launch name rest h
  | finalize job =>
      simp only [effects] at h
      split at h
      · exact nomatch h
      · rw [List.mem_singleton.mp h]
        exact .finalize job
  | launchNext job todo => exact nomatch h
  | _ => cases hf

/-- `down` and `kill`. -/
theorem makes_stopping (hf : t.family = .stopping) (h : e ∈ effects env w t) :
    Makes env w t e := by
  cases t with
  | stopHandles run kill purges =>
      rw [List.mem_singleton.mp h]
      exact .stopHandles run kill purges
  | stopUnits run kill purges todo =>
      cases todo with
      | nil => exact nomatch h
      | cons name todo =>
          simp only [effects] at h
          rcases List.mem_append.mp h with h | h
          · split at h
            · rw [List.mem_singleton.mp h]
              exact .aside _ rfl
            · exact nomatch h
          · rw [List.mem_singleton.mp h]
            exact .aside _ rfl
  | markStopped run purges =>
      simp only [effects] at h
      split at h
      · exact nomatch h
      · rw [List.mem_singleton.mp h]
        exact .markStopped run purges
  | purge run =>
      rw [List.mem_singleton.mp h]
      exact .purge run
  | listServices run kill purges | releasePorts run purges => exact nomatch h
  | _ => cases hf

/-- Pausing, `gc` and the start of the daemon. -/
theorem makes_control (hf : t.family = .control) (h : e ∈ effects env w t) :
    Makes env w t e := by
  cases t with
  | pauseWatch run service =>
      simp only [effects] at h
      split at h
      · exact nomatch h
      · split at h
        · exact nomatch h
        · exact makes_setPaused (.pauseWatch run service) h
  | resumeWatch run service =>
      simp only [effects] at h
      split at h
      · exact nomatch h
      · split at h
        · exact nomatch h
        · exact makes_setPaused (.resumeWatch run service) h
  | gc =>
      rw [List.mem_singleton.mp h]
      exact .gc
  | boot jobs =>
      cases jobs with
      | nil =>
          rw [List.mem_singleton.mp h]
          exact .aside _ rfl
      | cons job jobs => exact nomatch h
  | _ => cases hf

/-- **THERE ARE NO OTHERS.** -/
theorem makes_of_mem (h : e ∈ effects env w t) : Makes env w t e := by
  cases hf : t.family with
  | manifests => exact makes_manifests hf h
  | watch => exact makes_watch hf h
  | restart => exact makes_restart hf h
  | readiness => exact makes_readiness hf h
  | reconcile => exact makes_reconcile hf h
  | globals => exact makes_globals hf h
  | opening => exact makes_opening hf h
  | launching => exact makes_launching hf h
  | stopping => exact makes_stopping hf h
  | control => exact makes_control hf h

end Families

end DevstackEffects
