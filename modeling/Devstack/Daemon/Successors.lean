import Devstack.Daemon.Tasks

/-! # Successors — what a task can become

    One constructor of `Succ` for each way a task goes on: which tasks can stand in
    its place after a step.  The answers of the outside and the state of the world
    decide between them; `succ_of_mem` only says that there are no others. -/

namespace DevstackSuccessors

open DevstackModel DevstackHealth DevstackConfig DevstackLaunch DevstackWorld DevstackTasks

/-- The tasks that can stand in a task's place after one step. -/
inductive Succ (env : Env) (w : World) : Task → Task → Prop where
  -- app/runtime.rs
  | persistWrite (run : String) (record : RunRecord) (k : Cont) (hrun : w.runs[run]? = some record) :
      Succ env w (.persist run k) (.write (persistedRun record) k)
  | persistGone {run : String} {k : Cont} {result : Except String Unit} {t' : Task}
      (hmem : t' ∈ k.resume result) : Succ env w (.persist run k) t'
  | writeResume {manifest : PersistedRun} {k : Cont} {result : Except String Unit} {t' : Task}
      (hmem : t' ∈ k.resume result) : Succ env w (.write manifest k) t'
  | persistGlobalWrite (key : String) (global : GlobalRecord) (k : Cont) :
      Succ env w (.persistGlobal key k) (.writeGlobal (persistedGlobal global) k)
  | persistGlobalGone {key : String} {k : Cont} {result : Except String Unit} {t' : Task}
      (hmem : t' ∈ k.resume result) : Succ env w (.persistGlobal key k) t'
  | writeGlobalResume {manifest : PersistedGlobal} {k : Cont} {result : Except String Unit}
      {t' : Task} (hmem : t' ∈ k.resume result) : Succ env w (.writeGlobal manifest k) t'
  -- launch/watch.rs
  | syncWatcherResume {run service : String} {k : Cont} {result : Except String Unit} {t' : Task}
      (hmem : t' ∈ k.resume result) : Succ env w (.syncWatcher run service k) t'
  | syncWatcherKeep (run service : String) (k : Cont) :
      Succ env w (.syncWatcher run service k) (.keepWatcher ⟨run, service, w.nextHandle⟩ k)
  | syncWatcherSpawn (run service : String) (k : Cont) :
      Succ env w (.syncWatcher run service k) (.watcherTop ⟨run, service, w.nextHandle⟩)
  | keepWatcherResume {t : WatcherTask} {k : Cont} {result : Except String Unit} {t' : Task}
      (hmem : t' ∈ k.resume result) : Succ env w (.keepWatcher t k) t'
  | syncGlobalWatcherResume {key : String} {k : Cont} {result : Except String Unit} {t' : Task}
      (hmem : t' ∈ k.resume result) : Succ env w (.syncGlobalWatcher key k) t'
  | syncGlobalWatcherKeep (key : String) (k : Cont) :
      Succ env w (.syncGlobalWatcher key k) (.keepGlobalWatcher ⟨key, w.nextHandle⟩ k)
  | syncGlobalWatcherSpawn (key : String) (k : Cont) :
      Succ env w (.syncGlobalWatcher key k) (.globalWatcherTop ⟨key, w.nextHandle⟩)
  | keepGlobalWatcherResume {t : GlobalWatcherTask} {k : Cont} {result : Except String Unit}
      {t' : Task} (hmem : t' ∈ k.resume result) : Succ env w (.keepGlobalWatcher t k) t'
  | syncCaptureResume {run service : String} {k : Cont} {result : Except String Unit} {t' : Task}
      (hmem : t' ∈ k.resume result) : Succ env w (.syncCapture run service k) t'
  | syncCaptureKeep (run service : String) (k : Cont) :
      Succ env w (.syncCapture run service k) (.keepCapture run service k)
  | keepCaptureResume {run service : String} {k : Cont} {result : Except String Unit} {t' : Task}
      (hmem : t' ∈ k.resume result) : Succ env w (.keepCapture run service k) t'
  | watcherTop (t : WatcherTask) (hheld : t.handle ∉ w.raised) :
      Succ env w (.watcherTop t) (.watcherEvent t)
  | watcherEventTop (t : WatcherTask) : Succ env w (.watcherEvent t) (.watcherTop t)
  | watcherEventCompare (t : WatcherTask) (hash : String) :
      Succ env w (.watcherEvent t) (.watcherCompare t hash)
  | watcherCompareTop (t : WatcherTask) (hash : String) :
      Succ env w (.watcherCompare t hash) (.watcherTop t)
  | watcherCompareRestart (t : WatcherTask) (hash : String) :
      Succ env w (.watcherCompare t hash) (.restart t.run t.service true (.watcher t))
  | globalWatcherTop (t : GlobalWatcherTask) (hheld : t.handle ∉ w.raised) :
      Succ env w (.globalWatcherTop t) (.globalWatcherEvent t)
  | globalWatcherEventTop (t : GlobalWatcherTask) :
      Succ env w (.globalWatcherEvent t) (.globalWatcherTop t)
  | globalWatcherEventCompare (t : GlobalWatcherTask) (hash : String) :
      Succ env w (.globalWatcherEvent t) (.globalWatcherCompare t hash)
  | globalWatcherCompareTop (t : GlobalWatcherTask) (hash : String) :
      Succ env w (.globalWatcherCompare t hash) (.globalWatcherTop t)
  | globalWatcherCompareRestart (t : GlobalWatcherTask) (hash : String) :
      Succ env w (.globalWatcherCompare t hash) (.restartGlobal t)
  -- commands/restart.rs
  | restartGone {run service : String} {noWait : Bool} {caller : Caller} {t' : Task}
      (hmem : t' ∈ caller.resume) : Succ env w (.restart run service noWait caller) t'
  | restartBegun (run service unitName : String) (noWait : Bool) (launch : Nat) (caller : Caller) :
      Succ env w (.restart run service noWait caller)
        (.loadPostInit ⟨run, service, noWait, launch, unitName, caller⟩)
  | loadPostInitFailed {r : Restarting} {t' : Task} (hmem : t' ∈ r.caller.resume) :
      Succ env w (.loadPostInit r) t'
  | loadPostInitDone (r : Restarting) : Succ env w (.loadPostInit r) (.restartUnit r)
  | restartUnitFailed {r : Restarting} {t' : Task} (hmem : t' ∈ r.caller.resume) :
      Succ env w (.restartUnit r) t'
  | restartUnitDone (r : Restarting) : Succ env w (.restartUnit r) (.restarted r)
  | restartedPersist (r : Restarting) :
      Succ env w (.restarted r) (.persist r.run (.restarted r.caller))
  | restartedSpawn (r : Restarting) :
      Succ env w (.restarted r) (.waitReadiness r.run r.service r.launch)
  | restartedWait (r : Restarting) : Succ env w (.restarted r) (.waitRestart r)
  | waitRestartGone {r : Restarting} {t' : Task} (hmem : t' ∈ r.caller.resume) :
      Succ env w (.waitRestart r) t'
  | waitRestartPersist (r : Restarting) :
      Succ env w (.waitRestart r) (.persist r.run (.restarted r.caller))
  | waitRestartSpawn (r : Restarting) :
      Succ env w (.waitRestart r) (.monitorInit r.run r.service)
  -- launch/readiness.rs
  | waitReadinessPersist (run service : String) (launch : Nat) :
      Succ env w (.waitReadiness run service launch) (.persist run .finish)
  | waitReadinessSpawn (run service : String) (launch : Nat) :
      Succ env w (.waitReadiness run service launch) (.monitorInit run service)
  | monitorInit (run service : String) (handle : HandleId) (monitor : Monitor) :
      Succ env w (.monitorInit run service) (.monitorTop ⟨run, service, handle, monitor⟩)
  | monitorTop (m : MonitorTask) (hheld : m.handle ∉ w.raised) :
      Succ env w (.monitorTop m) (.monitorSlept m)
  | monitorSlept (m : MonitorTask) (hheld : m.handle ∉ w.raised) :
      Succ env w (.monitorSlept m) (.monitorProbe m)
  | monitorProbeTop (m : MonitorTask) (monitor : Monitor) :
      Succ env w (.monitorProbe m) (.monitorTop { m with monitor := monitor })
  | monitorProbePersist (m : MonitorTask) (monitor : Monitor) (restart : Bool) :
      Succ env w (.monitorProbe m)
        (.persist m.run (.monitorTurn { m with monitor := monitor } restart))
  | monitorLimit (m : MonitorTask) : Succ env w (.monitorLimit m) (.persist m.run .finish)
  -- commands/reconcile.rs
  | statusGone {run : String} {k : Cont} {result : Except String Unit} {t' : Task}
      (hmem : t' ∈ k.resume result) : Succ env w (.status run k) t'
  | statusWrite (run : String) (copy : RunRecord) (k : Cont) :
      Succ env w (.status run k) (.writeStatus run copy k)
  | writeStatusResume {run : String} {copy : RunRecord} {k : Cont} {result : Except String Unit}
      {t' : Task} (hmem : t' ∈ k.resume result) : Succ env w (.writeStatus run copy k) t'
  | writeStatusPersist (run : String) (copy : RunRecord) (k : Cont) :
      Succ env w (.writeStatus run copy k) (.persist run k)
  | listRuns {runs : List String} {result : Except String Unit} {t' : Task}
      (hmem : t' ∈ (Cont.statusRest runs).resume result) : Succ env w .listRuns t'
  -- commands/ensure_globals.rs
  | ensureGlobalsDone {todo : List GlobalTarget} {caller : GlobalsCaller}
      {result : Except String Unit} {t' : Task} (hmem : t' ∈ caller.resume result) :
      Succ env w (.ensureGlobals todo caller) t'
  | ensureGlobalsNext (target : GlobalTarget) (existing : Option PersistedGlobal)
      (rest : List GlobalTarget) (caller : GlobalsCaller) :
      Succ env w (.ensureGlobals (target :: rest) caller) (.checkGlobal target existing rest caller)
  | checkGlobalFailed {target : GlobalTarget} {existing : Option PersistedGlobal}
      {rest : List GlobalTarget} {caller : GlobalsCaller} {result : Except String Unit} {t' : Task}
      (hmem : t' ∈ caller.resume result) :
      Succ env w (.checkGlobal target existing rest caller) t'
  | checkGlobalPersist (target : GlobalTarget) (existing : Option PersistedGlobal)
      (rest : List GlobalTarget) (caller : GlobalsCaller) :
      Succ env w (.checkGlobal target existing rest caller)
        (.persistGlobal target.key (.globalPersisted target.key none rest caller))
  | checkGlobalStart (target : GlobalTarget) (existing : Option PersistedGlobal)
      (prepared : PreparedService) (createdAt : String) (rest : List GlobalTarget)
      (caller : GlobalsCaller) :
      Succ env w (.checkGlobal target existing rest caller)
        (.startGlobal target prepared createdAt rest caller)
  | startGlobal (target : GlobalTarget) (prepared : PreparedService) (createdAt : String)
      (launch : Nat) (start : Except String Unit) (rest : List GlobalTarget)
      (caller : GlobalsCaller) :
      Succ env w (.startGlobal target prepared createdAt rest caller)
        (.waitGlobal target prepared createdAt launch start rest caller)
  | waitGlobal (target : GlobalTarget) (prepared : PreparedService) (createdAt : String)
      (launch : Nat) (start : Except String Unit) (failure : Option String)
      (rest : List GlobalTarget) (caller : GlobalsCaller) :
      Succ env w (.waitGlobal target prepared createdAt launch start rest caller)
        (.persistGlobal target.key (.globalPersisted target.key failure rest caller))
  | restartGlobalGone (t : GlobalWatcherTask) :
      Succ env w (.restartGlobal t) (.globalWatcherTop t)
  | restartGlobalBegun (t : GlobalWatcherTask) (unitName : String) (launch : Nat) :
      Succ env w (.restartGlobal t) (.persistGlobalRestart t unitName launch)
  | persistGlobalRestartGone (t : GlobalWatcherTask) (unitName : String) (launch : Nat) :
      Succ env w (.persistGlobalRestart t unitName launch) (.globalWatcherTop t)
  | persistGlobalRestartWrite (t : GlobalWatcherTask) (manifest : PersistedGlobal)
      (unitName : String) (launch : Nat) :
      Succ env w (.persistGlobalRestart t unitName launch)
        (.writeGlobalRestart manifest t unitName launch)
  | writeGlobalRestartFailed (t : GlobalWatcherTask) (manifest : PersistedGlobal)
      (unitName : String) (launch : Nat) :
      Succ env w (.writeGlobalRestart manifest t unitName launch) (.globalWatcherTop t)
  | writeGlobalRestartDone (t : GlobalWatcherTask) (manifest : PersistedGlobal)
      (unitName : String) (launch : Nat) :
      Succ env w (.writeGlobalRestart manifest t unitName launch)
        (.restartGlobalUnit t unitName launch)
  | restartGlobalUnitTop (t : GlobalWatcherTask) (unitName : String) (launch : Nat) :
      Succ env w (.restartGlobalUnit t unitName launch) (.globalWatcherTop t)
  | restartGlobalUnitSpawn (t : GlobalWatcherTask) (unitName : String) (launch : Nat) :
      Succ env w (.restartGlobalUnit t unitName launch) (.waitGlobalRestart t.key launch)
  | waitGlobalRestart (key : String) (launch : Nat) :
      Succ env w (.waitGlobalRestart key launch) (.persistGlobal key .finish)
  -- commands/runs.rs: up and refresh_run
  | upRefresh (request : UpRequest) (job : UpJob) (hcreates : job.creates = false)
      (hlatest : findLatestRunForProjectStack env.canonical w request.projectDir request.stack
        = some job.runId) :
      Succ env w (.up request) (.refresh job)
  | upNew (request : UpRequest) (plan : StackPlan) (configDir : String)
      (globals : List GlobalTarget) (job : UpJob)
      (hrequested : env.requested = .ok (plan, configDir, globals))
      (hlatest : request.newRun = false → request.runId = none →
        findLatestRunForProjectStack env.canonical w request.projectDir request.stack = none)
      (hplan : job.plan = plan) (hdir : job.projectDir = request.projectDir)
      (hcreates : job.creates = true) :
      Succ env w (.up request) (.ensureGlobals job.globals (.up job))
  | refresh (job : UpJob) (existing : BTreeMap ExistingServiceSnapshot) (removed : List String) :
      Succ env w (.refresh job) (.stopRemoved { job with existing := existing } removed removed)
  | stopRemovedDone (job : UpJob) (removed : List String) :
      Succ env w (.stopRemoved job removed []) (.removeMissing job removed)
  | stopRemovedNext (job : UpJob) (removed : List String) (name : String) (todo : List String) :
      Succ env w (.stopRemoved job removed (name :: todo)) (.stopRemoved job removed todo)
  | removeMissing (job : UpJob) (removed : List String) :
      Succ env w (.removeMissing job removed) (.ensureGlobals job.globals (.up job))
  | openRun (job : UpJob) : Succ env w (.openRun job) (.launchNext job job.plan.order)
  | launchNextDone (job : UpJob) : Succ env w (.launchNext job []) (.finalize job)
  | launchNextUnchanged (job : UpJob) (prepared : PreparedService) (name : String)
      (rest : List String) :
      Succ env w (.launchNext job (name :: rest)) (.applyUnchanged job prepared name rest)
  | launchNextFailedInit (job : UpJob) (prepared : PreparedService) (error name : String)
      (rest : List String) :
      Succ env w (.launchNext job (name :: rest)) (.storeFailedInit job prepared error name rest)
  | launchNextStart (job : UpJob) (prepared : PreparedService) (name : String)
      (rest : List String) :
      Succ env w (.launchNext job (name :: rest)) (.startUnit job prepared name rest)
  | applyUnchanged (job : UpJob) (prepared : PreparedService) (name : String)
      (rest : List String) :
      Succ env w (.applyUnchanged job prepared name rest)
        (.syncWatcher job.runId name (.unchangedSynced job name rest))
  | storeFailedInit (job : UpJob) (prepared : PreparedService) (error name : String)
      (rest : List String) :
      Succ env w (.storeFailedInit job prepared error name rest)
        (.syncWatcher job.runId name (.launchRest job rest))
  | startUnit (job : UpJob) (prepared : PreparedService) (launch : Nat)
      (start : Except String Unit) (name : String) (rest : List String) :
      Succ env w (.startUnit job prepared name rest)
        (.storeResult job prepared launch start name rest)
  | storeResult (job : UpJob) (prepared : PreparedService) (launch : Nat)
      (start : Except String Unit) (name : String) (rest : List String) :
      Succ env w (.storeResult job prepared launch start name rest)
        (.syncWatcher job.runId name (.launched job prepared launch start name rest))
  | proxyFailed (job : UpJob) (launch : Nat) (name reason : String) :
      Succ env w (.proxyFailed job launch name reason) (.persist job.runId .finish)
  | handleReadinessNext (job : UpJob) (launch : Nat) (name : String) (rest : List String) :
      Succ env w (.handleReadiness job launch name rest) (.launchNext job rest)
  | handleReadinessWait (job : UpJob) (launch : Nat) (name : String) (rest : List String) :
      Succ env w (.handleReadiness job launch name rest) (.waitReadiness job.runId name launch)
  | handleReadinessFailed (job : UpJob) (launch : Nat) (name : String) (rest : List String) :
      Succ env w (.handleReadiness job launch name rest) (.persist job.runId .finish)
  | handleReadinessSpawn (job : UpJob) (launch : Nat) (name : String) (rest : List String) :
      Succ env w (.handleReadiness job launch name rest) (.monitorInit job.runId name)
  | finalize (job : UpJob) : Succ env w (.finalize job) (.persist job.runId .finish)
  -- commands/runs.rs: down and kill
  | stopHandles (run : String) (kill purge : Bool) :
      Succ env w (.stopHandles run kill purge) (.listServices run kill purge)
  | listServices (run : String) (kill purge : Bool) (todo : List String) :
      Succ env w (.listServices run kill purge) (.stopUnits run kill purge todo)
  | stopUnitsDone (run : String) (kill purge : Bool) :
      Succ env w (.stopUnits run kill purge []) (.releasePorts run purge)
  | stopUnitsNext (run : String) (kill purge : Bool) (name : String) (todo : List String) :
      Succ env w (.stopUnits run kill purge (name :: todo)) (.stopUnits run kill purge todo)
  | releasePorts (run : String) (purge : Bool) :
      Succ env w (.releasePorts run purge) (.markStopped run purge)
  | markStopped (run : String) (purge : Bool) :
      Succ env w (.markStopped run purge) (.persist run (.stopped run purge))
  -- commands/watch.rs, daemon/bootstrap.rs
  | resumeWatch {run : String} {service : Option String} {targets : List String}
      {result : Except String Unit} {t' : Task}
      (hmem : t' ∈ (Cont.resumeRest run targets).resume result) :
      Succ env w (.resumeWatch run service) t'
  | bootGlobal (target : GlobalTarget) (jobs : List BootJob) :
      Succ env w (.boot (.ensureGlobal target :: jobs))
        (.ensureGlobals [target] (.boot target.key jobs))
  | bootCapture (run service : String) (jobs : List BootJob) :
      Succ env w (.boot (.capture run service :: jobs)) (.syncCapture run service (.boot jobs))
  | bootWatcher (run service : String) (jobs : List BootJob) :
      Succ env w (.boot (.watcher run service :: jobs)) (.syncWatcher run service (.boot jobs))
  | bootGlobalWatcher (key : String) (jobs : List BootJob) :
      Succ env w (.boot (.globalWatcher key :: jobs)) (.syncGlobalWatcher key (.boot jobs))

theorem mem_either {c : Prop} [Decidable c] {a b t' : Task}
    (h : t' ∈ if c then [a] else [b]) : t' = a ∨ t' = b := by
  split at h
  · exact Or.inl (List.mem_singleton.mp h)
  · exact Or.inr (List.mem_singleton.mp h)

/-- The tasks a call can become when it returns. -/
inductive Resumes : Cont → Task → Prop where
  | monitorTop (m : MonitorTask) : Resumes (.restarted (.monitor m)) (.monitorTop m)
  | monitorLimit (m : MonitorTask) : Resumes (.restarted (.monitor m)) (.monitorLimit m)
  | watcherTop (t : WatcherTask) : Resumes (.restarted (.watcher t)) (.watcherTop t)
  | monitorNext (m : MonitorTask) : Resumes (.monitorTurn m false) (.monitorTop m)
  | monitorRestart (m : MonitorTask) :
      Resumes (.monitorTurn m true) (.restart m.run m.service true (.monitor m))
  | status (run : String) (runs : List String) :
      Resumes (.statusRest (run :: runs)) (.status run (.statusRest runs))
  | purge (run : String) : Resumes (.stopped run true) (.purge run)
  | syncWatcher (run service : String) (services : List String) :
      Resumes (.resumeRest run (service :: services))
        (.syncWatcher run service (.resumeRest run services))
  | boot (jobs : List BootJob) : Resumes (.boot jobs) (.boot jobs)
  | syncGlobal (key : String) (failure : Option String) (rest : List GlobalTarget)
      (caller : GlobalsCaller) :
      Resumes (.globalPersisted key failure rest caller)
        (.syncGlobalWatcher key (.globalSynced failure rest caller))
  | persistFailed (key : String) (failure : Option String) (rest : List GlobalTarget)
      (key' : String) (jobs : List BootJob) :
      Resumes (.globalPersisted key failure rest (.boot key' jobs)) (.boot jobs)
  | ensureRest (rest : List GlobalTarget) (caller : GlobalsCaller) :
      Resumes (.globalSynced none rest caller) (.ensureGlobals rest caller)
  | syncFailed (failure : Option String) (rest : List GlobalTarget) (key : String)
      (jobs : List BootJob) :
      Resumes (.globalSynced failure rest (.boot key jobs)) (.boot jobs)
  | unchangedSynced (job : UpJob) (name : String) (rest : List String) :
      Resumes (.unchangedSynced job name rest)
        (.syncCapture job.runId name (.launchRest job rest))
  | launchRest (job : UpJob) (rest : List String) :
      Resumes (.launchRest job rest) (.launchNext job rest)
  | launched (job : UpJob) (prepared : PreparedService) (launch : Nat) (name : String)
      (rest : List String) :
      Resumes (.launched job prepared launch (.ok ()) name rest)
        (.syncCapture job.runId name (.captured job launch name rest))
  | notLaunched (job : UpJob) (prepared : PreparedService) (launch : Nat) (error name : String)
      (rest : List String) :
      Resumes (.launched job prepared launch (.error error) name rest) (.launchNext job rest)
  | captured (job : UpJob) (launch : Nat) (name : String) (rest : List String) :
      Resumes (.captured job launch name rest) (.handleReadiness job launch name rest)
  | notCaptured (job : UpJob) (launch : Nat) (name reason : String) (rest : List String) :
      Resumes (.captured job launch name rest) (.proxyFailed job launch name reason)

/-- The tasks `ensure_globals` returns to. -/
inductive GlobalsResumes : GlobalsCaller → Task → Prop where
  | up (job : UpJob) : GlobalsResumes (.up job) (.openRun job)
  | ensured (key : String) (jobs : List BootJob) :
      GlobalsResumes (.boot key jobs) (.syncGlobalWatcher key (.boot jobs))
  | failed (key : String) (jobs : List BootJob) : GlobalsResumes (.boot key jobs) (.boot jobs)

theorem globalsResumes_of_mem {caller : GlobalsCaller} {result : Except String Unit} {t' : Task}
    (h : t' ∈ caller.resume result) : GlobalsResumes caller t' := by
  cases caller with
  | up job =>
      cases result with
      | ok _ => rw [List.mem_singleton.mp h]; exact .up job
      | error err => exact nomatch h
  | boot key jobs =>
      cases result with
      | ok _ => rw [List.mem_singleton.mp h]; exact .ensured key jobs
      | error err => rw [List.mem_singleton.mp h]; exact .failed key jobs

theorem resumes_of_mem {k : Cont} {result : Except String Unit} {t' : Task}
    (h : t' ∈ k.resume result) : Resumes k t' := by
  -- a global that failed returns to the daemon's start only
  have hglobals : ∀ {caller : GlobalsCaller} {err : String}, t' ∈ caller.resume (.error err) →
      ∃ key jobs, caller = .boot key jobs ∧ t' = .boot jobs := by
    intro caller err hmem
    cases caller with
    | up job => exact nomatch hmem
    | boot key jobs => exact ⟨key, jobs, rfl, List.mem_singleton.mp hmem⟩
  cases k with
  | finish => exact nomatch h
  | restarted caller =>
      cases caller with
      | request => exact nomatch h
      | monitor m =>
          rcases mem_either h with rfl | rfl
          · exact .monitorLimit m
          · exact .monitorTop m
      | watcher t => rw [List.mem_singleton.mp h]; exact .watcherTop t
  | monitorTurn m restart =>
      cases restart <;> rw [List.mem_singleton.mp h]
      · exact .monitorNext m
      · exact .monitorRestart m
  | statusRest runs =>
      cases runs with
      | nil => exact nomatch h
      | cons run runs =>
          cases result with
          | ok _ => rw [List.mem_singleton.mp h]; exact .status run runs
          | error err => exact nomatch h
  | stopped run purge =>
      cases result with
      | error err => exact nomatch h
      | ok _ =>
          cases purge with
          | false => exact nomatch h
          | true => rw [List.mem_singleton.mp h]; exact .purge run
  | resumeRest run services =>
      cases services with
      | nil => exact nomatch h
      | cons service services => rw [List.mem_singleton.mp h]; exact .syncWatcher run service services
  | boot jobs => rw [List.mem_singleton.mp h]; exact .boot jobs
  | globalPersisted key failure rest caller =>
      cases result with
      | ok _ => rw [List.mem_singleton.mp h]; exact .syncGlobal key failure rest caller
      | error err =>
          obtain ⟨key', jobs, rfl, rfl⟩ := hglobals h
          exact .persistFailed key failure rest key' jobs
  | globalSynced failure rest caller =>
      cases result with
      | ok _ =>
          cases failure with
          | none => rw [List.mem_singleton.mp h]; exact .ensureRest rest caller
          | some failure =>
              obtain ⟨key, jobs, rfl, rfl⟩ := hglobals h
              exact .syncFailed (some failure) rest key jobs
      | error err =>
          have hmem : t' ∈ caller.resume (.error err) := by cases failure <;> exact h
          obtain ⟨key, jobs, rfl, rfl⟩ := hglobals hmem
          exact .syncFailed failure rest key jobs
  | unchangedSynced job name rest =>
      rw [List.mem_singleton.mp h]
      exact .unchangedSynced job name rest
  | launchRest job rest => rw [List.mem_singleton.mp h]; exact .launchRest job rest
  | launched job prepared launch start name rest =>
      cases start with
      | ok _ => rw [List.mem_singleton.mp h]; exact .launched job prepared launch name rest
      | error err => rw [List.mem_singleton.mp h]; exact .notLaunched job prepared launch err name rest
  | captured job launch name rest =>
      cases result with
      | ok _ => rw [List.mem_singleton.mp h]; exact .captured job launch name rest
      | error err => rw [List.mem_singleton.mp h]; exact .notCaptured job launch name _ rest

/-- A delivered result spawns at most the service's monitor. -/
theorem mem_deliver {w : World} {run service now : String} {result : Except String Unit}
    {t' : Task} (h : t' ∈ (deliver w run service now result).2) :
    t' = .monitorInit run service := by
  cases result with
  | error reason => exact nomatch h
  | ok _ =>
      simp only [deliver, markReadyStep] at h
      split at h
      · split at h
        · exact List.mem_singleton.mp h
        · exact nomatch h
      · exact nomatch h

section Families

variable {env : Env} {w : World} {t t' : Task}

/-- `app/runtime.rs`. -/
theorem succ_manifests (hf : t.family = .manifests) (h : t' ∈ (t.step env w).2) :
    Succ env w t t' := by
  cases t with
  | persist run k =>
      simp only [Task.step] at h
      split at h
      · next record hrun =>
          rw [List.mem_singleton.mp h]
          exact .persistWrite run record k hrun
      · exact .persistGone h
  | write manifest k =>
      simp only [Task.step] at h
      split at h
      · exact .writeResume h
      · exact .writeResume h
  | persistGlobal key k =>
      simp only [Task.step] at h
      split at h
      · rw [List.mem_singleton.mp h]
        exact .persistGlobalWrite key _ k
      · exact .persistGlobalGone h
  | writeGlobal manifest k =>
      simp only [Task.step] at h
      split at h
      · exact .writeGlobalResume h
      · exact .writeGlobalResume h
  | _ => cases hf

/-- `launch/watch.rs`. -/
theorem succ_watch (hf : t.family = .watch) (h : t' ∈ (t.step env w).2) :
    Succ env w t t' := by
  cases t with
  | syncWatcher run service k =>
      simp only [Task.step] at h
      split at h
      · exact .syncWatcherResume h
      · split at h
        · exact .syncWatcherResume h
        · exact .syncWatcherResume h
        · split at h
          · exact .syncWatcherResume h
          · rcases List.mem_cons.mp h with rfl | h
            · exact .syncWatcherKeep run service k
            · rw [List.mem_singleton.mp h]
              exact .syncWatcherSpawn run service k
  | keepWatcher t k =>
      simp only [Task.step] at h
      split at h
      · exact .keepWatcherResume h
      · exact .keepWatcherResume h
  | syncGlobalWatcher key k =>
      simp only [Task.step] at h
      split at h
      · exact .syncGlobalWatcherResume h
      · split at h
        · exact .syncGlobalWatcherResume h
        · exact .syncGlobalWatcherResume h
        · split at h
          · exact .syncGlobalWatcherResume h
          · rcases List.mem_cons.mp h with rfl | h
            · exact .syncGlobalWatcherKeep key k
            · rw [List.mem_singleton.mp h]
              exact .syncGlobalWatcherSpawn key k
  | keepGlobalWatcher t k =>
      simp only [Task.step] at h
      split at h
      · exact .keepGlobalWatcherResume h
      · exact .keepGlobalWatcherResume h
  | syncCapture run service k =>
      simp only [Task.step] at h
      split at h
      · exact .syncCaptureResume h
      · split at h
        · rw [List.mem_singleton.mp h]
          exact .syncCaptureKeep run service k
        · exact .syncCaptureResume h
  | keepCapture run service k =>
      simp only [Task.step] at h
      split at h
      · exact .keepCaptureResume h
      · exact .keepCaptureResume h
      · split at h
        · exact .keepCaptureResume h
        · exact .keepCaptureResume h
  | watcherTop t =>
      simp only [Task.step] at h
      split at h
      · exact nomatch h
      · next hheld =>
          rw [List.mem_singleton.mp h]
          exact .watcherTop t hheld
  | watcherEvent t =>
      simp only [Task.step] at h
      split at h
      · exact nomatch h
      · rw [List.mem_singleton.mp h]
        exact .watcherEventTop t
      · split at h
        · rw [List.mem_singleton.mp h]
          exact .watcherEventTop t
        · split at h
          · rw [List.mem_singleton.mp h]
            exact .watcherEventTop t
          · rw [List.mem_singleton.mp h]
            exact .watcherEventCompare t _
  | watcherCompare t hash =>
      simp only [Task.step] at h
      split at h
      · exact nomatch h
      · split at h
        · rw [List.mem_singleton.mp h]
          exact .watcherCompareRestart t hash
        · rw [List.mem_singleton.mp h]
          exact .watcherCompareTop t hash
  | globalWatcherTop t =>
      simp only [Task.step] at h
      split at h
      · exact nomatch h
      · next hheld =>
          rw [List.mem_singleton.mp h]
          exact .globalWatcherTop t hheld
  | globalWatcherEvent t =>
      simp only [Task.step] at h
      split at h
      · exact nomatch h
      · rw [List.mem_singleton.mp h]
        exact .globalWatcherEventTop t
      · split at h
        · rw [List.mem_singleton.mp h]
          exact .globalWatcherEventTop t
        · split at h
          · rw [List.mem_singleton.mp h]
            exact .globalWatcherEventTop t
          · rw [List.mem_singleton.mp h]
            exact .globalWatcherEventCompare t _
  | globalWatcherCompare t hash =>
      simp only [Task.step] at h
      split at h
      · exact nomatch h
      · split at h
        · rw [List.mem_singleton.mp h]
          exact .globalWatcherCompareRestart t hash
        · rw [List.mem_singleton.mp h]
          exact .globalWatcherCompareTop t hash
  | _ => cases hf

/-- `commands/restart.rs`. -/
theorem succ_restart (hf : t.family = .restart) (h : t' ∈ (t.step env w).2) :
    Succ env w t t' := by
  cases t with
  | restart run service noWait caller =>
      simp only [Task.step] at h
      split at h
      · exact .restartGone h
      · split at h
        · exact .restartGone h
        · rw [List.mem_singleton.mp h]
          exact .restartBegun run service _ noWait _ caller
  | loadPostInit r =>
      simp only [Task.step] at h
      split at h
      · exact .loadPostInitFailed h
      · rw [List.mem_singleton.mp h]
        exact .loadPostInitDone r
  | restartUnit r =>
      simp only [Task.step] at h
      split at h
      · exact .restartUnitFailed h
      · rw [List.mem_singleton.mp h]
        exact .restartUnitDone r
  | restarted r =>
      simp only [Task.step] at h
      split at h
      · rcases List.mem_cons.mp h with rfl | h
        · exact .restartedPersist r
        · rw [List.mem_singleton.mp h]
          exact .restartedSpawn r
      · rw [List.mem_singleton.mp h]
        exact .restartedWait r
  | waitRestart r =>
      simp only [Task.step] at h
      split at h
      · exact .waitRestartGone h
      · rcases List.mem_cons.mp h with rfl | h
        · exact .waitRestartPersist r
        · rw [mem_deliver h]
          exact .waitRestartSpawn r
  | _ => cases hf

/-- `launch/readiness.rs`. -/
theorem succ_readiness (hf : t.family = .readiness) (h : t' ∈ (t.step env w).2) :
    Succ env w t t' := by
  cases t with
  | waitReadiness run service launch =>
      rcases List.mem_cons.mp h with rfl | h
      · exact .waitReadinessPersist run service launch
      · rw [mem_deliver h]
        exact .waitReadinessSpawn run service launch
  | monitorInit run service =>
      simp only [Task.step] at h
      split at h
      · exact nomatch h
      · split at h
        · exact nomatch h
        · rw [List.mem_singleton.mp h]
          exact .monitorInit run service _ _
  | monitorTop m =>
      simp only [Task.step] at h
      split at h
      · exact nomatch h
      · next hheld =>
          rw [List.mem_singleton.mp h]
          exact .monitorTop m hheld
  | monitorSlept m =>
      simp only [Task.step] at h
      split at h
      · exact nomatch h
      · next hheld =>
          rw [List.mem_singleton.mp h]
          exact .monitorSlept m hheld
  | monitorProbe m =>
      simp only [Task.step] at h
      rcases mem_either h with rfl | rfl
      · exact .monitorProbeTop m _
      · exact .monitorProbePersist m _ _
  | monitorLimit m =>
      rw [List.mem_singleton.mp h]
      exact .monitorLimit m
  | _ => cases hf

/-- `commands/reconcile.rs`. -/
theorem succ_reconcile (hf : t.family = .reconcile) (h : t' ∈ (t.step env w).2) :
    Succ env w t t' := by
  cases t with
  | status run k =>
      simp only [Task.step] at h
      split at h
      · exact .statusGone h
      · rw [List.mem_singleton.mp h]
        exact .statusWrite run _ k
  | writeStatus run copy k =>
      simp only [Task.step] at h
      split at h
      · exact .writeStatusResume h
      · split at h
        · rw [List.mem_singleton.mp h]
          exact .writeStatusPersist run copy k
        · exact .writeStatusResume h
  | listRuns => exact .listRuns h
  | _ => cases hf

/-- `commands/ensure_globals.rs`. -/
theorem succ_globals (hf : t.family = .globals) (h : t' ∈ (t.step env w).2) :
    Succ env w t t' := by
  cases t with
  | ensureGlobals todo caller =>
      cases todo with
      | nil => exact .ensureGlobalsDone h
      | cons target rest =>
          rw [List.mem_singleton.mp h]
          exact .ensureGlobalsNext target _ rest caller
  | checkGlobal target existing rest caller =>
      simp only [Task.step] at h
      split at h
      · exact .checkGlobalFailed h
      · rw [List.mem_singleton.mp h]
        exact .checkGlobalPersist target existing rest caller
      · rw [List.mem_singleton.mp h]
        exact .checkGlobalStart target existing _ _ rest caller
  | startGlobal target prepared createdAt rest caller =>
      rw [List.mem_singleton.mp h]
      exact .startGlobal target prepared createdAt _ _ rest caller
  | waitGlobal target prepared createdAt launch start rest caller =>
      rw [List.mem_singleton.mp h]
      exact .waitGlobal target prepared createdAt launch start _ rest caller
  | restartGlobal t =>
      simp only [Task.step] at h
      split at h
      · rw [List.mem_singleton.mp h]
        exact .restartGlobalGone t
      · rw [List.mem_singleton.mp h]
        exact .restartGlobalBegun t _ _
  | persistGlobalRestart t unitName launch =>
      simp only [Task.step] at h
      split at h
      · rw [List.mem_singleton.mp h]
        exact .persistGlobalRestartWrite t _ unitName launch
      · rw [List.mem_singleton.mp h]
        exact .persistGlobalRestartGone t unitName launch
  | writeGlobalRestart manifest t unitName launch =>
      simp only [Task.step] at h
      split at h
      · rw [List.mem_singleton.mp h]
        exact .writeGlobalRestartFailed t manifest unitName launch
      · rw [List.mem_singleton.mp h]
        exact .writeGlobalRestartDone t manifest unitName launch
  | restartGlobalUnit t unitName launch =>
      simp only [Task.step] at h
      split at h
      · rw [List.mem_singleton.mp h]
        exact .restartGlobalUnitTop t unitName launch
      · rcases List.mem_cons.mp h with rfl | h
        · exact .restartGlobalUnitTop t unitName launch
        · rw [List.mem_singleton.mp h]
          exact .restartGlobalUnitSpawn t unitName launch
  | waitGlobalRestart key launch =>
      rw [List.mem_singleton.mp h]
      exact .waitGlobalRestart key launch
  | _ => cases hf

/-- `up` and `refresh_run`, before the first launch. -/
theorem succ_opening (hf : t.family = .opening) (h : t' ∈ (t.step env w).2) :
    Succ env w t t' := by
  cases t with
  | up request =>
      simp only [Task.step] at h
      split at h
      · exact nomatch h
      · next plan configDir globals hrequested =>
          split at h
          · next runId hlatest =>
              rw [List.mem_singleton.mp h]
              refine .upRefresh request _ rfl ?_
              by_cases hnew : request.newRun = false ∧ request.runId = none
              · rwa [if_pos hnew] at hlatest
              · rw [if_neg hnew] at hlatest
                exact nomatch hlatest
          · next hlatest =>
              split at h
              · exact nomatch h
              · rw [List.mem_singleton.mp h]
                refine .upNew request plan configDir globals
                  ⟨request.runId.getD env.newRunId, plan, request.projectDir, configDir, globals,
                    request.noWait, false, ∅, true⟩ hrequested ?_ rfl rfl rfl
                intro hnew hid
                rwa [if_pos ⟨hnew, hid⟩] at hlatest
  | refresh job =>
      simp only [Task.step] at h
      split at h
      · exact nomatch h
      · rw [List.mem_singleton.mp h]
        exact .refresh job _ _
  | stopRemoved job removed todo =>
      cases todo with
      | nil =>
          rw [List.mem_singleton.mp h]
          exact .stopRemovedDone job removed
      | cons name todo =>
          rw [List.mem_singleton.mp h]
          exact .stopRemovedNext job removed name todo
  | removeMissing job removed =>
      simp only [Task.step] at h
      split at h
      · exact nomatch h
      · split at h
        · exact nomatch h
        · rw [List.mem_singleton.mp h]
          exact .removeMissing job removed
  | openRun job =>
      simp only [Task.step] at h
      split at h
      · exact nomatch h
      · split at h
        · exact nomatch h
        · rw [List.mem_singleton.mp h]
          exact .openRun job
      · split at h
        · rw [List.mem_singleton.mp h]
          exact .openRun job
        · exact nomatch h
  | _ => cases hf

/-- `up` and `refresh_run`, from the first launch on. -/
theorem succ_launching (hf : t.family = .launching) (h : t' ∈ (t.step env w).2) :
    Succ env w t t' := by
  cases t with
  | launchNext job todo =>
      cases todo with
      | nil =>
          rw [List.mem_singleton.mp h]
          exact .launchNextDone job
      | cons name rest =>
          simp only [Task.step] at h
          split at h
          · split at h
            · rw [List.mem_singleton.mp h]
              exact .launchNextUnchanged job _ name rest
            · split at h
              · rw [List.mem_singleton.mp h]
                exact .launchNextFailedInit job _ _ name rest
              · rw [List.mem_singleton.mp h]
                exact .launchNextStart job _ name rest
          · exact nomatch h
  | applyUnchanged job prepared name rest =>
      simp only [Task.step] at h
      split at h
      · exact nomatch h
      · rw [List.mem_singleton.mp h]
        exact .applyUnchanged job prepared name rest
  | storeFailedInit job prepared error name rest =>
      simp only [Task.step] at h
      split at h
      · exact nomatch h
      · rw [List.mem_singleton.mp h]
        exact .storeFailedInit job prepared error name rest
  | startUnit job prepared name rest =>
      simp only [Task.step] at h
      split at h
      · exact nomatch h
      · rw [List.mem_singleton.mp h]
        exact .startUnit job prepared _ _ name rest
  | storeResult job prepared launch start name rest =>
      simp only [Task.step] at h
      split at h
      · exact nomatch h
      · rw [List.mem_singleton.mp h]
        exact .storeResult job prepared launch start name rest
  | proxyFailed job launch name reason =>
      simp only [Task.step] at h
      split at h
      · exact nomatch h
      · rw [List.mem_singleton.mp h]
        exact .proxyFailed job launch name reason
  | handleReadiness job launch name rest =>
      simp only [Task.step] at h
      split at h
      · rcases List.mem_cons.mp h with rfl | h
        · exact .handleReadinessNext job launch name rest
        · rw [List.mem_singleton.mp h]
          exact .handleReadinessWait job launch name rest
      · split at h
        · exact nomatch h
        · split at h
          · rcases List.mem_cons.mp h with rfl | h
            · exact .handleReadinessNext job launch name rest
            · rw [mem_deliver h]
              exact .handleReadinessSpawn job launch name rest
          · rcases List.mem_cons.mp h with rfl | h
            · exact .handleReadinessFailed job launch name rest
            · rw [mem_deliver h]
              exact .handleReadinessSpawn job launch name rest
  | finalize job =>
      simp only [Task.step] at h
      split at h
      · exact nomatch h
      · rw [List.mem_singleton.mp h]
        exact .finalize job
  | _ => cases hf

/-- `down` and `kill`. -/
theorem succ_stopping (hf : t.family = .stopping) (h : t' ∈ (t.step env w).2) :
    Succ env w t t' := by
  cases t with
  | stopHandles run kill purge =>
      rw [List.mem_singleton.mp h]
      exact .stopHandles run kill purge
  | listServices run kill purge =>
      simp only [Task.step] at h
      split at h
      · exact nomatch h
      · rw [List.mem_singleton.mp h]
        exact .listServices run kill purge _
  | stopUnits run kill purge todo =>
      cases todo with
      | nil =>
          rw [List.mem_singleton.mp h]
          exact .stopUnitsDone run kill purge
      | cons name todo =>
          rw [List.mem_singleton.mp h]
          exact .stopUnitsNext run kill purge name todo
  | releasePorts run purge =>
      simp only [Task.step] at h
      split at h
      · exact nomatch h
      · rw [List.mem_singleton.mp h]
        exact .releasePorts run purge
  | markStopped run purge =>
      simp only [Task.step] at h
      split at h
      · exact nomatch h
      · rw [List.mem_singleton.mp h]
        exact .markStopped run purge
  | purge run => exact nomatch h
  | _ => cases hf

/-- Pausing, `gc` and the start of the daemon. -/
theorem succ_control (hf : t.family = .control) (h : t' ∈ (t.step env w).2) :
    Succ env w t t' := by
  cases t with
  | pauseWatch run service =>
      simp only [Task.step] at h
      split at h
      · exact nomatch h
      · split at h
        · exact nomatch h
        · exact nomatch h
  | resumeWatch run service =>
      simp only [Task.step] at h
      split at h
      · exact nomatch h
      · split at h
        · exact nomatch h
        · exact .resumeWatch h
  | gc => exact nomatch h
  | boot jobs =>
      cases jobs with
      | nil => exact nomatch h
      | cons job jobs =>
          cases job with
          | ensureGlobal target =>
              rw [List.mem_singleton.mp h]
              exact .bootGlobal target jobs
          | capture run service =>
              rw [List.mem_singleton.mp h]
              exact .bootCapture run service jobs
          | watcher run service =>
              rw [List.mem_singleton.mp h]
              exact .bootWatcher run service jobs
          | globalWatcher key =>
              rw [List.mem_singleton.mp h]
              exact .bootGlobalWatcher key jobs
  | _ => cases hf

/-- **THERE ARE NO OTHERS.** -/
theorem succ_of_mem (h : t' ∈ (t.step env w).2) : Succ env w t t' := by
  cases hf : t.family with
  | manifests => exact succ_manifests hf h
  | watch => exact succ_watch hf h
  | restart => exact succ_restart hf h
  | readiness => exact succ_readiness hf h
  | reconcile => exact succ_reconcile hf h
  | globals => exact succ_globals hf h
  | opening => exact succ_opening hf h
  | launching => exact succ_launching hf h
  | stopping => exact succ_stopping hf h
  | control => exact succ_control hf h

end Families

/-! ## One task goes on -/

/-- The tasks that a step spawns beside the one that goes on. -/
def spawned : Task → Bool
  | .watcherTop _ | .globalWatcherTop _ | .waitReadiness .. | .monitorInit ..
  | .waitGlobalRestart .. => true
  | _ => false

/-- Tasks of which all but the first are spawned. -/
def Onward (ts : List Task) : Prop := ∀ t ∈ ts.tail, spawned t = true

section Onward

theorem onward_nil : Onward [] := fun _ ht => (nomatch ht)

theorem onward_one (t : Task) : Onward [t] := fun _ ht => (nomatch ht)

theorem onward_two (t : Task) {t' : Task} (h : spawned t' = true) : Onward [t, t'] := by
  intro t'' ht
  rw [List.mem_singleton.mp ht]
  exact h

theorem onward_ite {c : Prop} [Decidable c] {ts ts' : List Task} (h : Onward ts)
    (h' : Onward ts') : Onward (if c then ts else ts') := by
  split
  · exact h
  · exact h'

theorem onward_caller (caller : Caller) : Onward caller.resume := by
  cases caller with
  | request => exact onward_nil
  | monitor m => exact onward_ite (onward_one _) (onward_one _)
  | watcher t => exact onward_one _

theorem onward_globalsCaller (caller : GlobalsCaller) (result : Except String Unit) :
    Onward (caller.resume result) := by
  cases caller <;> cases result <;> exact onward_nil

theorem onward_resume (k : Cont) (result : Except String Unit) : Onward (k.resume result) := by
  cases k with
  | finish => exact onward_nil
  | restarted caller => exact onward_caller caller
  | monitorTurn m restart => exact onward_ite (onward_one _) (onward_one _)
  | statusRest runs => cases runs <;> cases result <;> exact onward_nil
  | stopped run purge =>
      cases result with
      | ok _ => exact onward_ite (onward_one _) onward_nil
      | error err => exact onward_nil
  | resumeRest run services => cases services <;> exact onward_nil
  | globalPersisted key failure rest caller =>
      cases result with
      | ok _ => exact onward_one _
      | error err => exact onward_globalsCaller caller _
  | globalSynced failure rest caller =>
      cases failure <;> cases result <;>
        first | exact onward_one _ | exact onward_globalsCaller caller _
  | launched job prepared launch start name rest => cases start <;> exact onward_one _
  | captured job launch name rest => cases result <;> exact onward_one _
  | boot jobs | unchangedSynced job name rest | launchRest job rest => exact onward_one _

theorem onward_deliver (t : Task) (w : World) (run service now : String)
    (result : Except String Unit) : Onward (t :: (deliver w run service now result).2) := by
  intro t' (ht' : t' ∈ (deliver w run service now result).2)
  rw [mem_deliver ht']
  rfl

end Onward

section Step

variable (env : Env) (w : World) {t : Task}

/-- `app/runtime.rs`. -/
theorem onward_manifests (hf : t.family = .manifests) : Onward (t.step env w).2 := by
  cases t with
  | persist run k | persistGlobal key k =>
      simp only [Task.step]
      split
      · exact onward_one _
      · exact onward_resume k _
  | write manifest k | writeGlobal manifest k =>
      simp only [Task.step]
      split
      · exact onward_resume k _
      · exact onward_resume k _
  | _ => cases hf

/-- `launch/watch.rs`. -/
theorem onward_watch (hf : t.family = .watch) : Onward (t.step env w).2 := by
  cases t with
  | syncWatcher run service k | syncGlobalWatcher key k =>
      simp only [Task.step]
      split
      · exact onward_resume k _
      · split
        · exact onward_resume k _
        · exact onward_resume k _
        · split
          · exact onward_resume k _
          · exact onward_two _ rfl
  | keepWatcher t k | keepGlobalWatcher t k =>
      simp only [Task.step]
      split
      · exact onward_resume k _
      · exact onward_resume k _
  | syncCapture run service k =>
      simp only [Task.step]
      split
      · exact onward_resume k _
      · exact onward_ite (onward_one _) (onward_resume k _)
  | keepCapture run service k =>
      simp only [Task.step]
      split
      · exact onward_resume k _
      · exact onward_resume k _
      · split <;> exact onward_resume k _
  | watcherTop t | globalWatcherTop t =>
      simp only [Task.step]
      split
      · exact onward_nil
      · exact onward_one _
  | watcherEvent t | globalWatcherEvent t =>
      simp only [Task.step]
      split
      · exact onward_nil
      · exact onward_one _
      · split
        · exact onward_one _
        · split <;> exact onward_one _
  | watcherCompare t hash | globalWatcherCompare t hash =>
      simp only [Task.step]
      split
      · exact onward_nil
      · exact onward_ite (onward_one _) (onward_one _)
  | _ => cases hf

/-- `commands/restart.rs`. -/
theorem onward_restart (hf : t.family = .restart) : Onward (t.step env w).2 := by
  cases t with
  | restart run service noWait caller =>
      simp only [Task.step]
      split
      · exact onward_caller caller
      · split
        · exact onward_caller caller
        · exact onward_one _
  | loadPostInit r | restartUnit r =>
      simp only [Task.step]
      split
      · exact onward_caller r.caller
      · exact onward_one _
  | restarted r => exact onward_ite (onward_two _ rfl) (onward_one _)
  | waitRestart r =>
      simp only [Task.step]
      split
      · exact onward_caller r.caller
      · exact onward_deliver _ _ _ _ _ _
  | _ => cases hf

/-- `launch/readiness.rs`. -/
theorem onward_readiness (hf : t.family = .readiness) : Onward (t.step env w).2 := by
  cases t with
  | monitorTop m | monitorSlept m =>
      simp only [Task.step]
      split
      · exact onward_nil
      · exact onward_one _
  | waitReadiness run service launch => exact onward_deliver _ _ _ _ _ _
  | monitorInit run service =>
      simp only [Task.step]
      split
      · exact onward_nil
      · split
        · exact onward_nil
        · exact onward_one _
  | monitorProbe m => exact onward_ite (onward_one _) (onward_one _)
  | monitorLimit m => exact onward_one _
  | _ => cases hf

/-- `commands/reconcile.rs`. -/
theorem onward_reconcile (hf : t.family = .reconcile) : Onward (t.step env w).2 := by
  cases t with
  | status run k =>
      simp only [Task.step]
      split
      · exact onward_resume k _
      · exact onward_one _
  | writeStatus run copy k =>
      simp only [Task.step]
      split
      · exact onward_resume k _
      · exact onward_ite (onward_one _) (onward_resume k _)
  | listRuns => exact onward_resume _ _
  | _ => cases hf

/-- `commands/ensure_globals.rs`. -/
theorem onward_globals (hf : t.family = .globals) : Onward (t.step env w).2 := by
  cases t with
  | ensureGlobals todo caller =>
      cases todo with
      | nil => exact onward_globalsCaller caller _
      | cons target rest => exact onward_one _
  | checkGlobal target existing rest caller =>
      simp only [Task.step]
      split
      · exact onward_globalsCaller caller _
      · exact onward_one _
      · exact onward_one _
  | restartGlobal t | persistGlobalRestart t unitName launch
  | writeGlobalRestart manifest t unitName launch =>
      simp only [Task.step]
      split <;> exact onward_one _
  | restartGlobalUnit t unitName launch =>
      simp only [Task.step]
      split
      · exact onward_one _
      · exact onward_two _ rfl
  | startGlobal target prepared createdAt rest caller
  | waitGlobal target prepared createdAt launch start rest caller
  | waitGlobalRestart key launch => exact onward_one _
  | _ => cases hf

/-- `up` and `refresh_run`, before the first launch. -/
theorem onward_opening (hf : t.family = .opening) : Onward (t.step env w).2 := by
  cases t with
  | up request =>
      simp only [Task.step]
      split
      · exact onward_nil
      · split
        · exact onward_one _
        · split
          · exact onward_nil
          · exact onward_one _
  | removeMissing job removed =>
      simp only [Task.step]
      refine onward_ite onward_nil ?_
      split
      · exact onward_nil
      · exact onward_one _
  | openRun job =>
      simp only [Task.step]
      split
      · exact onward_nil
      · split
        · exact onward_nil
        · exact onward_one _
      · split
        · exact onward_one _
        · exact onward_nil
  | stopRemoved job removed todo => cases todo <;> exact onward_one _
  | refresh job =>
      simp only [Task.step]
      split
      · exact onward_nil
      · exact onward_one _
  | _ => cases hf

/-- `up` and `refresh_run`, from the first launch on. -/
theorem onward_launching (hf : t.family = .launching) : Onward (t.step env w).2 := by
  cases t with
  | launchNext job todo =>
      cases todo with
      | nil => exact onward_one _
      | cons name rest =>
          simp only [Task.step]
          split
          · split
            · exact onward_one _
            · split <;> exact onward_one _
          · exact onward_nil
  | startUnit job prepared name rest =>
      simp only [Task.step]
      split
      · exact onward_nil
      · exact onward_one _
  | handleReadiness job launch name rest =>
      simp only [Task.step]
      split
      · exact onward_two _ rfl
      · split
        · exact onward_nil
        · split <;> exact onward_deliver _ _ _ _ _ _
  | applyUnchanged job prepared name rest | storeFailedInit job prepared error name rest
  | storeResult job prepared launch start name rest | proxyFailed job launch name reason
  | finalize job =>
      simp only [Task.step]
      split
      · exact onward_nil
      · exact onward_one _
  | _ => cases hf

/-- `down` and `kill`. -/
theorem onward_stopping (hf : t.family = .stopping) : Onward (t.step env w).2 := by
  cases t with
  | stopUnits run kill purges todo => cases todo <;> exact onward_one _
  | listServices run kill purges | releasePorts run purges | markStopped run purges =>
      simp only [Task.step]
      split
      · exact onward_nil
      · exact onward_one _
  | stopHandles run kill purges => exact onward_one _
  | purge run => exact onward_nil
  | _ => cases hf

/-- Pausing, `gc` and the start of the daemon. -/
theorem onward_control (hf : t.family = .control) : Onward (t.step env w).2 := by
  cases t with
  | pauseWatch run service =>
      simp only [Task.step]
      split
      · exact onward_nil
      · split <;> exact onward_nil
  | resumeWatch run service =>
      simp only [Task.step]
      split
      · exact onward_nil
      · split
        · exact onward_nil
        · exact onward_resume _ _
  | boot jobs =>
      cases jobs with
      | nil => exact onward_nil
      | cons job jobs => cases job <;> exact onward_one _
  | gc => exact onward_nil
  | _ => cases hf

/-- **A STEP GOES ON WITH AT MOST ONE TASK**; what else it leaves was spawned. -/
theorem onward_step (t : Task) : Onward (t.step env w).2 := by
  cases hf : t.family with
  | manifests => exact onward_manifests env w hf
  | watch => exact onward_watch env w hf
  | restart => exact onward_restart env w hf
  | readiness => exact onward_readiness env w hf
  | reconcile => exact onward_reconcile env w hf
  | globals => exact onward_globals env w hf
  | opening => exact onward_opening env w hf
  | launching => exact onward_launching env w hf
  | stopping => exact onward_stopping env w hf
  | control => exact onward_control env w hf

end Step

end DevstackSuccessors
