import Devstack.Daemon.Successors

/-! # The daemon — requests, steps and restarts

    A state of the daemon is its world and its tasks.  Three things happen: a
    request adds a task, a task takes a step, the daemon restarts, which leaves
    nothing but the manifests (`src/persistence/daemon_state.rs`).

    What a step does to the launches is said once for all properties of runs:
    a task that begins a launch carries its number until the result of the
    launch is written (`carries_step`, `launches_step`). -/

namespace DevstackSystem

open DevstackModel DevstackStores DevstackReadiness DevstackHealth DevstackConfig DevstackLaunch
open DevstackStatus DevstackLocked DevstackWorld DevstackTasks DevstackSuccessors
open DevstackInterleaving DevstackMachine

-- ── persistence/daemon_state.rs ───────────────────────────────────────────────

/-- What the outside answers while the manifests are restored: which paths exist,
    and the services a run's snapshot or a global's configuration still has, as
    `prepare_service` prepares them. -/
structure RestoreAnswers where
  pathExists : String → Bool
  runPrepared : String → Option (String → Option PreparedService)
  globalPrepared : String → Option PreparedService

/-- The record restored for a saved service. -/
def restoredService (saved : PersistedService) (prepared : PreparedService) : ServiceRecord :=
  let prepared :=
    match saved.watchHash with
    | some watchHash => { prepared with watchHash := watchHash }
    | none => prepared
  let record := intoServiceRecord prepared saved.state saved.lastFailure saved.lastStartedAt
  { record with runtime := { record.runtime with watchPaused := saved.watchPaused } }

/-- `convert_manifest_to_run_record`, for a manifest `load_state_from_disk` keeps. -/
def restoreRun (answers : RestoreAnswers) (manifest : PersistedRun) : Option RunRecord :=
  if runManifestIsRestorable answers.pathExists manifest then
    (answers.runPrepared manifest.runId).map (fun prepared =>
      { runId := manifest.runId
        stack := manifest.stack
        projectDir := manifest.projectDir
        configDir := manifest.configDir
        baseEnv := manifest.env
        services := manifest.services.filterMap (fun name saved =>
          (prepared name).map (restoredService saved))
        state := manifest.state
        createdAt := manifest.createdAt
        stoppedAt := manifest.stoppedAt })
  else none

/-- `convert_manifest_to_global_record`, for a manifest `load_globals_from_disk` keeps. -/
def restoreGlobal (answers : RestoreAnswers) (manifest : PersistedGlobal) : Option GlobalRecord :=
  if globalManifestIsRestorable answers.pathExists manifest then
    (answers.globalPrepared manifest.key).map (fun prepared =>
      { key := manifest.key
        name := manifest.name
        projectDir := manifest.projectDir
        configPath := manifest.configPath
        service := restoredService manifest.service prepared
        state := manifest.state
        createdAt := manifest.createdAt
        stoppedAt := manifest.stoppedAt })
  else none

/-- What `run_daemon` does before it serves requests. -/
def bootJobs (answers : RestoreAnswers) (runs : BTreeMap RunRecord)
    (globalManifests : BTreeMap PersistedGlobal) : List BootJob :=
  let services := runs.toList.flatMap (fun kv => kv.2.services.keys.map (fun name => (kv.1, name)))
  let globals := (globalManifests.toList.map (·.2)).filter (globalManifestIsRestorable answers.pathExists)
  globals.map (fun g => .ensureGlobal ⟨g.key, g.name, g.projectDir, g.configPath⟩)
    ++ services.map (fun s => .capture s.1 s.2)
    ++ services.map (fun s => .watcher s.1 s.2)
    ++ globals.map (fun g => .globalWatcher g.key)

-- ── the system ────────────────────────────────────────────────────────────────

inductive Request where
  | up (request : UpRequest)
  | down (run : String) (purge : Bool)
  | kill (run : String)
  | restartService (run service : String) (noWait : Bool)
  | status (run : String)
  | listRuns
  | pauseWatch (run : String) (service : Option String)
  | resumeWatch (run : String) (service : Option String)
  | gc

/-- The task a request starts as. -/
def Request.task : Request → Task
  | .up request => .up request
  | .down run purge => .stopHandles run false purge
  | .kill run => .stopHandles run true false
  | .restartService run service noWait => .restart run service noWait .request
  | .status run => .status run .finish
  | .listRuns => .listRuns
  | .pauseWatch run service => .pauseWatch run service
  | .resumeWatch run service => .resumeWatch run service
  | .gc => .gc

abbrev Sys := World × List Task

inductive Action where
  | request (request : Request)
  | run (position : Nat) (env : Env)
  | daemonRestart (answers : RestoreAnswers)

/-- The daemon's new process: the stores are loaded, every task is gone. -/
def restartDaemon (answers : RestoreAnswers) (w : World) : Sys :=
  let runs := w.manifests.filterMap (fun _ manifest => restoreRun answers manifest)
  ({ w with
      runs := runs
      globals := w.globalManifests.filterMap (fun _ manifest => restoreGlobal answers manifest)
      raised := []
      paused := []
      serving := false },
    [.boot (bootJobs answers runs w.globalManifests)])

def sysStep (s : Sys) : Action → Sys
  | .request request => if s.1.serving then (s.1, s.2 ++ [request.task]) else s
  | .run position env => stepAt Task.step s (position, env)
  | .daemonRestart answers => restartDaemon answers s.1

/-- A daemon that was started on an empty disk. -/
def start : Sys :=
  ({ runs := ∅
     globals := ∅
     manifests := ∅
     globalManifests := ∅
     raised := []
     paused := []
     nextHandle := 0
     serving := true
     unitOps := []
     launches := fun _ => 0 }, [])

/-! ## Launches -/

/-- The launches a continuation still has to report on. -/
def contCarries : Cont → List (Key × Nat)
  | .launched job _ launch (.ok _) name _ => [(.service job.runId name, launch)]
  | .captured job launch name _ => [(.service job.runId name, launch)]
  | _ => []

/-- The launches a task carries: those it began, or was spawned for, and whose
    result is not yet written. -/
def carries : Task → List (Key × Nat)
  | .persist _ k | .write _ k | .persistGlobal _ k | .writeGlobal _ k
  | .syncWatcher _ _ k | .keepWatcher _ k | .syncGlobalWatcher _ k | .keepGlobalWatcher _ k
  | .syncCapture _ _ k | .keepCapture _ _ k | .status _ k | .writeStatus _ _ k => contCarries k
  | .loadPostInit r | .restartUnit r | .restarted r | .waitRestart r =>
      [(.service r.run r.service, r.launch)]
  | .waitReadiness run service launch => [(.service run service, launch)]
  | .waitGlobal target _ _ launch _ _ _ => [(.global target.key, launch)]
  | .persistGlobalRestart t _ launch | .writeGlobalRestart _ t _ launch
  | .restartGlobalUnit t _ launch => [(.global t.key, launch)]
  | .waitGlobalRestart key launch => [(.global key, launch)]
  | .storeResult job _ launch _ name _ | .proxyFailed job launch name _
  | .handleReadiness job launch name _ => [(.service job.runId name, launch)]
  | _ => []

/-- The launch a task's step begins. -/
def begins (w : World) : Task → Option Key
  | .restart run service _ _ =>
      if ((w.runs[run]?).bind (fun r => r.services[service]?)).isSome then
        some (.service run service)
      else none
  | .startGlobal target _ _ _ _ => some (.global target.key)
  | .startUnit job _ name _ => some (.service job.runId name)
  | .restartGlobal t => if (w.globals[t.key]?).isSome then some (.global t.key) else none
  | _ => none

section Launches

variable (w : World)

@[simp] theorem lock_launches (run : String) (op : RunOp) :
    (w.lock run op).launches = w.launches := by
  rw [World.lock]; split <;> rfl

@[simp] theorem lockGlobal_launches (key : String) (op : GlobalOp) :
    (w.lockGlobal key op).launches = w.launches := by
  rw [World.lockGlobal]; split <;> rfl

@[simp] theorem storePaused_launches (handle : HandleId) (value : Bool) :
    (w.storePaused handle value).launches = w.launches := rfl

@[simp] theorem allocate_launches : w.allocate.launches = w.launches := rfl

@[simp] theorem raise_launches (handle : HandleId) : (w.raise handle).launches = w.launches := rfl

@[simp] theorem unit_launches (action : UnitAction) (owner : Key) (unitName : String) :
    (w.unit action owner unitName).launches = w.launches := rfl

@[simp] theorem upsertGlobal_launches (global : GlobalRecord) :
    (w.upsertGlobal global).launches = w.launches := rfl

@[simp] theorem createRun_launches (run : RunRecord) :
    (w.createRun run).launches = w.launches := rfl

theorem beginLaunch_launches (key key' : Key) :
    (w.beginLaunch key).launches key'
      = if key' = key then w.launches key' + 1 else w.launches key' := rfl

theorem markReadyStep_launches (run service now : String) :
    (markReadyStep w run service now).1.launches = w.launches := by
  rw [markReadyStep]
  split
  · split <;> simp
  · simp

@[simp] theorem deliver_launches (run service now : String) (result : Except String Unit) :
    (deliver w run service now result).1.launches = w.launches := by
  cases result with
  | ok _ => exact markReadyStep_launches w run service now
  | error reason => exact lock_launches w run _

theorem setPausedStep_launches (runId : String) (run : RunRecord) (service : Option String)
    (value : Bool) : (setPausedStep w runId run service value).launches = w.launches := by
  rw [setPausedStep]
  generalize pausableHandles run service = handles
  have hfold : ∀ (handles : List HandleId) (v : World),
      (handles.foldl (fun w handle => w.storePaused handle value) v).launches = v.launches := by
    intro handles
    induction handles with
    | nil => intro v; rfl
    | cons handle handles ih => intro v; exact ih _
  rw [hfold, lock_launches]

end Launches

/-- Tasks that carry nothing outside `l`. -/
def Within (l : List (Key × Nat)) (ts : List Task) : Prop :=
  ∀ t ∈ ts, ∀ p ∈ carries t, p ∈ l

section Within

variable {l : List (Key × Nat)}

theorem within_nil : Within l [] := fun _ ht => (nomatch ht)

theorem within_cons {t : Task} {ts : List Task} (ht : ∀ p ∈ carries t, p ∈ l)
    (hts : Within l ts) : Within l (t :: ts) := by
  intro t' ht'
  rcases List.mem_cons.mp ht' with rfl | ht'
  · exact ht
  · exact hts t' ht'

/-- A task that carries nothing. -/
theorem within_free {t : Task} (ht : carries t = []) {ts : List Task} (hts : Within l ts) :
    Within l (t :: ts) :=
  within_cons (by rw [ht]; exact fun _ hp => (nomatch hp)) hts

end Within

section Resumed

variable {t' : Task}

/-- The callers of a restart carry nothing. -/
theorem carries_caller {caller : Caller} (h : t' ∈ caller.resume) : carries t' = [] := by
  cases caller with
  | request => exact nomatch h
  | monitor m => rcases mem_either h with rfl | rfl <;> rfl
  | watcher t => rw [List.mem_singleton.mp h]; rfl

theorem within_caller {l : List (Key × Nat)} (caller : Caller) : Within l caller.resume := by
  intro t' ht' p hp
  rw [carries_caller ht'] at hp
  exact nomatch hp

/-- The callers of `ensure_globals` carry nothing. -/
theorem carries_globalsCaller {caller : GlobalsCaller} {result : Except String Unit}
    (h : t' ∈ caller.resume result) : carries t' = [] := by
  cases globalsResumes_of_mem h <;> rfl

/-- What a call returns to carries no more than the call did. -/
theorem carries_resume {k : Cont} {result : Except String Unit} (h : t' ∈ k.resume result)
    {p : Key × Nat} (hp : p ∈ carries t') : p ∈ contCarries k := by
  cases resumes_of_mem h with
  | launched job prepared launch name rest => exact hp
  | captured job launch name rest => exact hp
  | notCaptured job launch name reason rest => exact hp
  | _ => cases hp

end Resumed

/-- A step that begins no launch carries no more than its task did. -/
theorem within_step (env : Env) (w : World) {t : Task} (hbegins : begins w t = none) :
    Within (carries t) (t.step env w).2 := by
  intro t' ht' p hp
  cases succ_of_mem ht' with
  -- a call returns, and its continuation carries what the call did
  | persistGone hmem | writeResume hmem | persistGlobalGone hmem | writeGlobalResume hmem
  | syncWatcherResume hmem | keepWatcherResume hmem | syncGlobalWatcherResume hmem
  | keepGlobalWatcherResume hmem | syncCaptureResume hmem | keepCaptureResume hmem
  | statusGone hmem | writeStatusResume hmem | listRuns hmem | resumeWatch hmem =>
      exact carries_resume hmem hp
  | restartGone hmem | loadPostInitFailed hmem | restartUnitFailed hmem | waitRestartGone hmem =>
      rw [carries_caller hmem] at hp
      exact nomatch hp
  | ensureGlobalsDone hmem | checkGlobalFailed hmem =>
      rw [carries_globalsCaller hmem] at hp
      exact nomatch hp
  -- the same launch, one step later
  | persistWrite run record k hrun => exact hp
  | persistGlobalWrite key global k | syncGlobalWatcherKeep key k => exact hp
  | syncWatcherKeep run service k | syncCaptureKeep run service k => exact hp
  | statusWrite run copy k | writeStatusPersist run copy k => exact hp
  | loadPostInitDone r | restartUnitDone r | restartedSpawn r | restartedWait r => exact hp
  | persistGlobalRestartWrite t manifest unitName launch
  | writeGlobalRestartDone t manifest unitName launch => exact hp
  | restartGlobalUnitSpawn t unitName launch => exact hp
  | handleReadinessWait job launch name rest => exact hp
  | storeResult job prepared launch start name rest =>
      cases start with
      | ok _ => exact hp
      | error err => exact nomatch hp
  -- these begin a launch
  | restartBegun run service unitName noWait launch caller =>
      simp only [begins, ite_eq_right_iff, reduceCtorEq, imp_false] at hbegins
      simp only [Task.step] at ht'
      split at ht'
      · exact within_caller caller _ ht' p hp
      · next record hrun =>
          split at ht'
          · exact within_caller caller _ ht' p hp
          · next s hs => exact absurd (by simp [hrun, hs]) hbegins
  | restartGlobalBegun t unitName launch =>
      simp only [begins, ite_eq_right_iff, reduceCtorEq, imp_false] at hbegins
      simp only [Task.step] at ht'
      split at ht'
      · exact nomatch List.mem_singleton.mp ht'
      · next global hglobal => exact absurd (by simp [hglobal]) hbegins
  | startGlobal target prepared createdAt launch start rest caller => exact nomatch hbegins
  | startUnit job prepared launch start name rest => exact nomatch hbegins
  | _ => cases hp

/-- **A STEP CARRIES ON** what its task carried, and what it begins. -/
theorem carries_step (env : Env) (w : World) (t : Task) :
    ∀ t' ∈ (t.step env w).2, ∀ p ∈ carries t',
      p ∈ carries t ∨ (begins w t = some p.1 ∧ p.2 = (t.step env w).1.launches p.1) := by
  intro t' ht' p hp
  cases hbegins : begins w t with
  | none => exact Or.inl (within_step env w hbegins t' ht' p hp)
  | some key =>
      cases t with
      | restart run service noWait caller =>
          simp only [Task.step] at ht' ⊢
          split at ht'
          · exact Or.inl (within_caller caller t' ht' p hp)
          · next record hrun =>
              split at ht'
              · exact Or.inl (within_caller caller t' ht' p hp)
              · next s hs =>
                  simp only [begins, hrun, hs, Option.bind_some, Option.isSome_some, if_true]
                    at hbegins ⊢
                  rw [List.mem_singleton.mp ht'] at hp
                  rw [List.mem_singleton.mp hp]
                  exact Or.inr ⟨hbegins.symm, rfl⟩
      | startGlobal target prepared createdAt rest caller =>
          rw [List.mem_singleton.mp ht'] at hp
          rw [List.mem_singleton.mp hp]
          exact Or.inr ⟨hbegins.symm, rfl⟩
      | startUnit job prepared name rest =>
          simp only [Task.step] at ht' ⊢
          split at ht'
          · exact nomatch ht'
          · rw [List.mem_singleton.mp ht'] at hp
            rw [List.mem_singleton.mp hp]
            exact Or.inr ⟨hbegins.symm, rfl⟩
      | restartGlobal watcher =>
          simp only [Task.step] at ht' ⊢
          split at ht'
          · rw [List.mem_singleton.mp ht'] at hp
            exact nomatch hp
          · next global hglobal =>
              simp only [begins, hglobal, Option.isSome_some, if_true] at hbegins
              rw [List.mem_singleton.mp ht'] at hp
              rw [List.mem_singleton.mp hp]
              exact Or.inr ⟨hbegins.symm, rfl⟩
      | _ => exact nomatch hbegins

/-- A step that begins no launch counts none. -/
theorem launches_same (env : Env) (w : World) {t : Task} (hbegins : begins w t = none) :
    (t.step env w).1.launches = w.launches := by
  cases t with
  | restart run service noWait caller =>
      simp only [begins, ite_eq_right_iff, reduceCtorEq, imp_false] at hbegins
      simp only [Task.step]
      split
      · rfl
      · next record hrun =>
          split
          · rfl
          · next s hs => exact absurd (by simp [hrun, hs]) hbegins
  | restartGlobal t =>
      simp only [begins, ite_eq_right_iff, reduceCtorEq, imp_false] at hbegins
      simp only [Task.step]
      split
      · rfl
      · next global hglobal => exact absurd (by simp [hglobal]) hbegins
  | startGlobal target prepared createdAt rest caller => exact nomatch hbegins
  | startUnit job prepared name rest => exact nomatch hbegins
  | syncWatcher run service k =>
      simp only [Task.step]
      split
      · rfl
      · split
        · simp
        · rfl
        · split <;> rfl
  | keepWatcher t k =>
      simp only [Task.step]
      split
      · rfl
      · split <;> simp
  | syncGlobalWatcher key k =>
      simp only [Task.step]
      split
      · rfl
      · split
        · simp
        · rfl
        · split <;> rfl
  | keepGlobalWatcher t k =>
      simp only [Task.step]
      split
      · rfl
      · split <;> simp
  | keepCapture run service k =>
      simp only [Task.step]
      split
      · rfl
      · rfl
      · split <;> simp
  | checkGlobal target existing rest caller =>
      simp only [Task.step]
      split <;> rfl
  | ensureGlobals todo caller => cases todo <;> rfl
  | up request =>
      simp only [Task.step]
      split
      · rfl
      · split
        · rfl
        · split <;> rfl
  | stopRemoved job removed todo => cases todo <;> rfl
  | removeMissing job removed =>
      simp only [Task.step]
      split <;> simp
  | openRun job =>
      simp only [Task.step]
      split
      · rfl
      · split <;> simp
      · split <;> simp
  | launchNext job todo =>
      cases todo with
      | nil => rfl
      | cons name rest =>
          simp only [Task.step]
          split
          · split
            · rfl
            · split <;> rfl
          · rfl
  | handleReadiness job launch name rest =>
      simp only [Task.step]
      split
      · rfl
      · split <;> simp
  | stopUnits run kill purge todo =>
      cases todo with
      | nil => rfl
      | cons name todo =>
          simp only [Task.step]
          split <;> rfl
  | pauseWatch run service =>
      simp only [Task.step]
      split
      · rfl
      · split
        · rfl
        · exact setPausedStep_launches w run _ service true
  | resumeWatch run service =>
      simp only [Task.step]
      split
      · rfl
      · split
        · rfl
        · exact setPausedStep_launches w run _ service false
  | boot jobs =>
      cases jobs with
      | nil => rfl
      | cons job jobs => cases job <;> rfl
  | persist run k | persistGlobal key k | status run k | write manifest k | writeGlobal manifest k
  | syncCapture run service k | writeStatus run copy k | loadPostInit r | waitRestart r
  | refresh job | applyUnchanged job prepared name rest
  | storeFailedInit job prepared error name rest | storeResult job prepared launch start name rest
  | proxyFailed job launch name reason | finalize job | listServices run kill purge
  | releasePorts run purge | markStopped run purge | watcherTop t | watcherCompare t hash
  | globalWatcherTop t | globalWatcherCompare t hash | monitorTop m | monitorSlept m
  | persistGlobalRestart t unitName launch | writeGlobalRestart manifest t unitName launch =>
      simp only [Task.step]
      split <;> first | rfl | simp
  | monitorInit run service =>
      simp only [Task.step]
      split
      · rfl
      · split <;> rfl
  | watcherEvent t =>
      simp only [Task.step]
      split
      · rfl
      · rfl
      · split
        · rfl
        · split <;> rfl
  | globalWatcherEvent t =>
      simp only [Task.step]
      split
      · rfl
      · rfl
      · split
        · rfl
        · split <;> rfl
  | restartUnit r | restarted r | waitReadiness run service launch | monitorProbe m
  | monitorLimit m | waitGlobal target prepared createdAt launch start rest caller
  | restartGlobalUnit t unitName launch | waitGlobalRestart key launch
  | stopHandles run kill purge => simp [Task.step]
  | listRuns | purge run | gc => rfl

/-- A step counts the launch it begins, and no other. -/
theorem launches_step (env : Env) (w : World) (t : Task) (key : Key) :
    (t.step env w).1.launches key
      = if begins w t = some key then w.launches key + 1 else w.launches key := by
  cases hbegins : begins w t with
  | none => rw [launches_same env w hbegins]; rfl
  | some begun =>
      cases t with
      | restart run service noWait caller =>
          have hkey : begun = .service run service := by
            simp only [begins] at hbegins
            split at hbegins
            · exact (Option.some.inj hbegins).symm
            · exact nomatch hbegins
          subst hkey
          simp only [Task.step]
          split
          · next hrun => simp [begins, hrun] at hbegins
          · next record hrun =>
              split
              · next hs => simp [begins, hrun, hs] at hbegins
              · rw [beginLaunch_launches, lock_launches]
                simp only [Option.some.injEq, eq_comm]
      | startGlobal target prepared createdAt rest caller =>
          have hkey : begun = .global target.key := (Option.some.inj hbegins).symm
          subst hkey
          simp only [Task.step, unit_launches, beginLaunch_launches, Option.some.injEq, eq_comm]
      | startUnit job prepared name rest =>
          have hkey : begun = .service job.runId name := (Option.some.inj hbegins).symm
          subst hkey
          have hlaunches : ∀ v : World, v.launches = w.launches →
              (v.beginLaunch (.service job.runId name)).launches key
                = if some (Key.service job.runId name) = some key then w.launches key + 1
                  else w.launches key := by
            intro v hv
            rw [beginLaunch_launches, hv]
            simp only [Option.some.injEq, eq_comm]
          simp only [Task.step]
          split <;> (refine hlaunches _ ?_; rw [unit_launches]; split <;> rfl)
      | restartGlobal watcher =>
          have hkey : begun = .global watcher.key := by
            simp only [begins] at hbegins
            split at hbegins
            · exact (Option.some.inj hbegins).symm
            · exact nomatch hbegins
          subst hkey
          simp only [Task.step]
          split
          · next hglobal => simp [begins, hglobal] at hbegins
          · rw [beginLaunch_launches, lockGlobal_launches]
            simp only [Option.some.injEq, eq_comm]
      | _ => exact nomatch hbegins

/-! ## A stack with one service -/

/-- Port 3000 does not listen, no file exists, no unit is known. -/
def nothing : Observation where
  connects _ := false
  httpGet _ := .error "connection refused"
  file _ := .missing
  runCommand _ _ _ := .error "not run"
  unitStatus _ := .ok none

def webServices : BTreeMap ServiceConfig :=
  (∅ : BTreeMap ServiceConfig).insert "web" (ServiceConfig.ofCmd "serve" [])

theorem topoSort_webServices : topoSort webServices = .ok ["web"] := by decide

def webPlan : StackPlan where
  name := "dev"
  services := webServices
  order := ["web"]
  depsFirst := (topoSort_depsFirst topoSort_webServices).1
  nodup := List.nodup_singleton "web"

/-- Every call succeeds. -/
def smooth : Env where
  now := "2025-01-01T00:00:00Z"
  engine := ⟨fun _ => .error "unused"⟩
  obs := nothing
  unitStatus _ := none
  loadPostInit := .ok ()
  unit := .ok ()
  readiness := .ok ()
  writeManifest := .ok ()
  writeDaemonState := .ok ()
  watcher := .ok ()
  event := .quiet
  capture := .ok ()
  ports := .ok ()
  prepared := .ok (.plain "web" "serve" [])
  init := .ok ()
  requested := .ok (webPlan, "/app", [])
  canonical path := path
  newRunId := "dev-1"
  baseEnv := .ok ∅
  global := .error "unused"
  expired _ := false

/-- `up --no-wait` of the stack up to its answer: the service is `Starting`, its
    readiness task is pending. -/
def upWeb : List Action :=
  .request (.up ⟨"dev", "/app", none, true, false, false⟩) :: List.replicate 13 (.run 0 smooth)

end DevstackSystem
