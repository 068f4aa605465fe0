import Devstack.Completion
import Devstack.Daemon.Identity
import Devstack.EnvLayers
import Devstack.Gating
import Devstack.Restore

/-! # Restored runs — what a restart of the daemon makes of a run

    `up` and `refresh_run` as a whole: the plan, the resources, the launches of the
    services one by one, with everything else the daemon does in between.  A restored
    run is prepared again, from its snapshot, its manifest and the disk, while the
    records it should come back with were prepared from the arguments of the last
    launch that got to them.

    * `System.inputs` remembers, for the proofs only, what each record was last
      prepared from;
    * `Sound` says that every record still is what that preparation gave, up to the
      hash that its watcher keeps: no step but a launch changes more;
    * `restores_of_recorded`: where the recorded inputs are those of the last
      preparations, the run comes back as it was.

    A refresh writes the base environment and the snapshot of its run again, but not
    the directory of the configuration. -/

namespace DevstackRestoredRuns

open DevstackModel DevstackStores DevstackHealth DevstackConfig DevstackLaunch DevstackPorts
  DevstackResources DevstackPrepare DevstackGating DevstackRestore
open DevstackStatus DevstackLocked DevstackWorld DevstackTasks DevstackEffects
open DevstackIdentity DevstackCompletion
  DevstackMachine

/-! ## The system -/

/-- What a service was prepared from. -/
structure Preparation where
  files : Files
  args : PrepareArgs
  service : ServiceConfig

/-- The variables of `launch_services`, with the services that are still to come. -/
structure Launching where
  build : Build
  config : ConfigFile
  resources : LaunchResources
  existing : BTreeMap ExistingServiceSnapshot
  noWait : Bool
  force : Bool
  todo : List String

structure System where
  world : World
  ports : Ports
  snapshots : BTreeMap String
  launching : List Launching
  inputs : String → String → Option Preparation

/-- The parts of an `UpRequest` that the plan is made from, too. -/
structure PlanRequest extends UpRequest where
  configPath : String
  services : List String

/-- What the outside answers to `up` until its first launch. -/
structure UpAnswers where
  config : Except String ConfigFile
  canonical : String → String
  newRunId : String
  outside : Outside

/-- What a new daemon finds on disk besides the runs' own directories. -/
structure Disk where
  files : Files
  globalManifests : BTreeMap PersistedGlobal
  pathExists : String → Bool

inductive Action where
  | up (request : PlanRequest) (answers : UpAnswers)
  | launchNext (position : Nat) (files : Files) (host : Host) (answers : LaunchAnswers)
  | locked (runId : String) (op : RunOp)
  | stop (answers : Answers) (kill purge : Bool) (runId : String)
  | gc (expired : String → Bool)
  | persist (runId : String) (written : Except String Unit)
  | daemonRestart (disk : Disk)

-- ── up and refresh_run ────────────────────────────────────────────────────────

def System.store (s : System) : Store := ⟨s.ports, s.world.runs, s.snapshots⟩

def System.setStore (s : System) (store : Store) : System :=
  { s with
    world := { s.world with runs := store.runs }
    ports := store.ports
    snapshots := store.snapshots }

/-- `up` and `refresh_run`, until `launch_services`. -/
def up (request : PlanRequest) (answers : UpAnswers) (s : System) : System :=
  match answers.config with
  | .error _ => s
  | .ok config =>
      match stackPlanFiltered config request.stack request.services with
      | .error _ => s
      | .ok plan =>
          let latest :=
            if request.newRun = false ∧ request.runId = none then
              findLatestRunForProjectStack answers.canonical s.world request.projectDir
                request.stack
            else none
          let build : Build :=
            { runId := latest.getD (request.runId.getD answers.newRunId)
              plan := plan
              globals := globalsMap config
              projectDir := request.projectDir
              configDir := (parentPath request.configPath).getD request.projectDir }
          let existing := (latest.bind (s.world.runs[·]?)).elim ∅ existingServices
          let built :=
            match latest with
            | some _ => refreshRun answers.outside build s.store
            | none => upNewRun answers.outside build s.store
          let opened := s.setStore built.2
          match built.1 with
          | .error _ => opened
          | .ok resources =>
              { opened with
                launching := opened.launching ++
                  [⟨build, config, resources, existing, request.noWait,
                    latest.isSome && request.force, plan.order⟩] }

/-- What `launch_service` prepares its service with. -/
def Launching.args (l : Launching) : PrepareArgs where
  scope := .run l.build.runId l.build.plan.name
  projectDir := l.build.projectDir
  configDir := l.build.configDir
  portMap := l.resources.portMap
  listenPortMap := l.resources.listenPortMap
  serviceSchemes := l.resources.serviceSchemes
  baseEnv := l.resources.baseEnv
  globalEnv := l.config.env
  globalEnvFile := globalEnvFilePath l.config l.build.configDir

/-- The branches of a launch that leave a record of what was prepared. -/
def stores : Fate → Bool
  | .refused | .releaseFailed => false
  | _ => true

section Steps

variable (tools : Tools)

/-- `prepare_service` in `launch_service`. -/
def Launching.prepared (l : Launching) (files : Files) (name : String) :
    Except String PreparedService :=
  match l.build.plan.services[name]? with
  | none => .error s!"service {name} missing"
  | some service => prepareService tools files l.args name service

/-- What the record of a service was last prepared from, after its launch. -/
def Launching.input (l : Launching) (files : Files) (answers : LaunchAnswers) (name : String)
    (before : Option Preparation) : Option Preparation :=
  if stores (fate l.build.plan l.force l.existing answers name) then
    (l.build.plan.services[name]?).map (⟨files, l.args, ·⟩)
  else before

/-- The launch of the next service, or `finalize_run_launch` up to its manifest; and
    what is left of the launch.  The manifests it writes are steps of their own. -/
def launchStep (files : Files) (host : Host) (answers : LaunchAnswers) (l : Launching)
    (s : System) : System × List Launching :=
  let runId := l.build.runId
  match s.world.runs[runId]?, l.todo with
  | none, _ => (s, [])
  | some _, [] => ({ s with world := s.world.lock runId .recompute }, [])
  | some run, name :: todo =>
      let answers := { answers with prepared := l.prepared tools files name }
      let launched := launchService l.build.plan l.noWait l.force l.existing answers name
        ⟨run, [], []⟩
      let input := l.input files answers name (s.inputs runId name)
      let run := launched.1.run
      let s :=
        { s with
          world :=
            { s.world with
              runs := s.world.runs.insert runId run
              raised := s.world.raised ++ launched.1.raised }
          inputs := fun id service =>
            if id = runId ∧ service = name then input else s.inputs id service }
      match launched.2 with
      | .ok _ => (s, [{ l with todo := todo }])
      | .error _ =>
          -- `release_unrecorded_stack_ports`
          ({ s with
              ports := releaseUnpreservedStackPorts host runId l.build.plan l.resources.portMap
                l.resources.listenPortMap (existingServices run) s.ports }, [])

/-- The locked steps of the background tasks and of the other commands. -/
def isBackground : RunOp → Bool
  | .applyPrepared .. | .store .. | .removeMissing .. | .updateResources .. => false
  | _ => true

-- ── the daemon's start ────────────────────────────────────────────────────────

variable (parse : String → Option ConfigFile)

/-- The configuration of a run, as its snapshot has it. -/
def snapshotOf (snapshots : BTreeMap String) (runId : String) : Option ConfigFile :=
  (snapshots[runId]?).bind parse

/-- The body of the loop of `load_state_from_disk`. -/
def loadRun (disk : Disk) (snapshots : BTreeMap String) (manifest : PersistedRun) :
    Option RunRecord :=
  let manifest := loadedRun manifest
  if runManifestIsRestorable disk.pathExists manifest then
    match snapshotOf parse snapshots manifest.runId with
    | none => none
    | some config =>
        (convertManifestToRunRecord tools disk.files disk.globalManifests manifest
          config).toOption
  else none

/-- What `convert_manifest_to_run_record` prepares a service from. -/
def loadInputs (disk : Disk) (snapshots : BTreeMap String) (manifest : PersistedRun)
    (name : String) : Option Preparation :=
  let manifest := loadedRun manifest
  match snapshotOf parse snapshots manifest.runId with
  | none => none
  | some config =>
      match stackPlan config manifest.stack,
          globalPortMap tools manifest.projectDir disk.globalManifests (globalsMap config) with
      | .ok plan, .ok globals =>
          (plan.services[name]?).map (⟨disk.files, restoreArgs manifest config plan globals, ·⟩)
      | _, _ => none

/-- The daemon's new process: the runs are loaded, every task is gone. -/
def daemonRestart (disk : Disk) (s : System) : System :=
  { s with
    world :=
      { s.world with
        runs := s.world.manifests.filterMap (fun _ manifest =>
          loadRun tools parse disk s.snapshots manifest)
        raised := []
        paused := [] }
    launching := []
    inputs := fun id name =>
      (s.world.manifests[id]?).bind (fun manifest =>
        loadInputs tools parse disk s.snapshots manifest name) }

def step (s : System) : Action → System
  | .up request answers => up request answers s
  | .launchNext position files host answers =>
      match s.launching[position]? with
      | none => s
      | some l =>
          let launched := launchStep tools files host answers l s
          { launched.1 with
            launching := s.launching.take position ++ launched.2
              ++ s.launching.drop (position + 1) }
  | .locked runId op =>
      if isBackground op then { s with world := s.world.lock runId op } else s
  | .stop answers kill purge runId =>
      let stopped := stopRun answers kill purge runId ⟨s.world, s.ports⟩
      { s with
        world := stopped.2.world
        ports := stopped.2.ports
        snapshots := if purge && stopped.1.isOk then s.snapshots.erase runId else s.snapshots }
  | .gc expired =>
      { s with
        world := (Effect.collect expired).apply s.world
        snapshots := s.snapshots.filter (fun runId _ =>
          match s.world.runs[runId]? with
          | some run => !gcRemoves expired run
          | none => true) }
  | .persist runId written =>
      { s with world := (persistManifest written runId s.world).2 }
  | .daemonRestart disk => daemonRestart tools parse disk s

end Steps

/-- A daemon that was started on an empty disk. -/
def start (ports : Ports) : System where
  world := DevstackSystem.start.1
  ports := ports
  snapshots := ∅
  launching := []
  inputs := fun _ _ => none

/-! ## Records and what they were prepared from -/

/-- A record is what was prepared, up to the hash, the runtime and the handles. -/
def From (prepared : PreparedService) (record : ServiceRecord) : Prop :=
  prepared.spec = record.spec
    ∧ { prepared.launch with watchHash := record.launch.watchHash } = record.launch

/-- Two records with one specification and one plan, up to the hash. -/
def Alike (record record' : ServiceRecord) : Prop :=
  record'.spec = record.spec
    ∧ { record.launch with watchHash := record'.launch.watchHash } = record'.launch

theorem Alike.of_eq {record record' : ServiceRecord} (hspec : record'.spec = record.spec)
    (hlaunch : record'.launch = record.launch) : Alike record record' :=
  ⟨hspec, by rw [hlaunch]⟩

theorem Alike.refl (record : ServiceRecord) : Alike record record := ⟨rfl, rfl⟩

theorem Alike.trans {record record' record'' : ServiceRecord} (h : Alike record record')
    (h' : Alike record' record'') : Alike record record'' :=
  ⟨h'.1.trans h.1, by rw [← h'.2, ← h.2]⟩

theorem From.alike {prepared : PreparedService} {record record' : ServiceRecord}
    (h : From prepared record) (h' : Alike record record') : From prepared record' :=
  ⟨h.1.trans h'.1.symm, by rw [← h'.2, ← h.2]⟩

theorem from_intoServiceRecord (prepared : PreparedService) (state : ServiceState)
    (failure startedAt : Option String) :
    From prepared (intoServiceRecord prepared state failure startedAt) := ⟨rfl, rfl⟩

theorem from_applyPrepared (record : ServiceRecord) (prepared : PreparedService) :
    From prepared (applyPreparedToRuntime record prepared false).1 :=
  ⟨(applyPreparedToRuntime_spec record prepared).symm,
    by rw [applyPreparedToRuntime_launch]⟩

/-- The records of `run'` are records of `run`, up to what `Alike` leaves open. -/
structure KeepsRecords (run run' : RunRecord) : Prop where
  runId : run'.runId = run.runId
  records : ∀ (name : String) (record' : ServiceRecord), run'.services[name]? = some record' →
    ∃ record, run.services[name]? = some record ∧ Alike record record'

/-- So are all but one, which is what was prepared. -/
structure Launches (prepared : PreparedService) (service : String) (run run' : RunRecord) :
    Prop where
  runId : run'.runId = run.runId
  stored : ∀ record', run'.services[service]? = some record' → From prepared record'
  others : ∀ (name : String) (record' : ServiceRecord), run'.services[name]? = some record' →
    name ≠ service →
    ∃ record, run.services[name]? = some record ∧ Alike record record'

section Records

variable {run run' run'' : RunRecord}

theorem KeepsRecords.refl (run : RunRecord) : KeepsRecords run run :=
  ⟨rfl, fun _ record h => ⟨record, h, Alike.refl record⟩⟩

theorem KeepsRecords.trans (h : KeepsRecords run run') (h' : KeepsRecords run' run'') :
    KeepsRecords run run'' := by
  refine ⟨h'.runId.trans h.runId, fun name record'' hget => ?_⟩
  obtain ⟨record', hget', halike'⟩ := h'.records name record'' hget
  obtain ⟨record, hget, halike⟩ := h.records name record' hget'
  exact ⟨record, hget, halike.trans halike'⟩

theorem KeepsRecords.of_services (hid : run'.runId = run.runId)
    (hservices : ∀ name : String, run'.services[name]? = run.services[name]?) :
    KeepsRecords run run' :=
  ⟨hid, fun name record' h => ⟨record', (hservices name).symm.trans h, Alike.refl record'⟩⟩

theorem Launches.then_keeps {prepared : PreparedService} {service : String}
    (h : Launches prepared service run run') (h' : KeepsRecords run' run'') :
    Launches prepared service run run'' := by
  refine ⟨h'.runId.trans h.runId, fun record'' hget => ?_, fun name record'' hget hne => ?_⟩
  · obtain ⟨record', hget', halike⟩ := h'.records service record'' hget
    exact (h.stored record' hget').alike halike
  · obtain ⟨record', hget', halike'⟩ := h'.records name record'' hget
    obtain ⟨record, hget, halike⟩ := h.others name record' hget' hne
    exact ⟨record, hget, halike.trans halike'⟩

theorem keepsRecords_updateService {f : ServiceRecord → ServiceRecord × List HandleId}
    (hf : ∀ record, Alike record (f record).1) (run : RunRecord) (service : String) :
    KeepsRecords run (updateService run service f).1 := by
  refine ⟨(sameRun_updateService run service f).runId, fun name record' h => ?_⟩
  rw [updateService_services] at h
  by_cases hname : name = service
  · rw [if_pos hname] at h
    obtain ⟨record, hget, rfl⟩ := Option.map_eq_some_iff.mp h
    exact ⟨record, hget, hf record⟩
  · rw [if_neg hname] at h
    exact ⟨record', h, Alike.refl record'⟩

theorem keepsRecords_updateAndRecompute
    {f : ServiceRecord → ServiceRecord × Option DaemonEvent}
    (hf : ∀ record, Alike record (f record).1) (run : RunRecord) (service : String) :
    KeepsRecords run (updateAndRecompute run service f).1 := by
  refine ⟨(sameRun_updateAndRecompute run service f).runId, fun name record' h => ?_⟩
  rw [updateAndRecompute_services] at h
  by_cases hname : name = service
  · rw [if_pos hname] at h
    obtain ⟨record, hget, rfl⟩ := Option.map_eq_some_iff.mp h
    exact ⟨record, hget, hf record⟩
  · rw [if_neg hname] at h
    exact ⟨record', h, Alike.refl record'⟩

theorem keepsRecords_map {f : String → ServiceRecord → ServiceRecord}
    (hf : ∀ name record, Alike record (f name record)) (run : RunRecord) :
    KeepsRecords run { run with services := run.services.map f } := by
  refine ⟨rfl, fun name record' h => ?_⟩
  change (run.services.map f)[name]? = some record' at h
  rw [Std.ExtTreeMap.getElem?_map] at h
  obtain ⟨record, hget, rfl⟩ := Option.map_eq_some_iff.mp h
  exact ⟨record, hget, hf name record⟩

theorem launches_replace (prepared : PreparedService) (service : String) {record : ServiceRecord}
    (h : From prepared record) (run : RunRecord) :
    Launches prepared service run (replaceServiceRecord run service record).1 := by
  refine ⟨rfl, fun record' hget => ?_, fun name record' hget hne => ?_⟩
  · rw [replaceServiceRecord_services, if_pos rfl] at hget
    obtain rfl := Option.some.inj hget
    exact h
  · rw [replaceServiceRecord_services, if_neg hne] at hget
    exact ⟨record', hget, Alike.refl record'⟩

theorem launches_applyPrepared (prepared : PreparedService) (service : String) (run : RunRecord) :
    Launches prepared service run
      (updateService run service (fun record => applyPreparedToRuntime record prepared false)).1 := by
  refine ⟨(sameRun_updateService run service _).runId, fun record' hget => ?_,
    fun name record' hget hne => ?_⟩
  · rw [updateService_services, if_pos rfl] at hget
    obtain ⟨record, -, rfl⟩ := Option.map_eq_some_iff.mp hget
    exact from_applyPrepared record prepared
  · rw [updateService_services, if_neg hne] at hget
    exact ⟨record', hget, Alike.refl record'⟩

end Records

/-! ## The steps on a run -/

section Alike

variable (record : ServiceRecord)

theorem alike_beginRestart (runId service now : String) :
    Alike record (beginRestartRecord runId service now record).1 :=
  Alike.of_eq (by simp [beginRestartRecord]) (by simp [beginRestartRecord])

theorem alike_ready (runId service now : String) (fresh : HandleId) :
    Alike record (readyRecord runId service now fresh record).1 := by
  simp only [readyRecord]
  split
  · exact Alike.of_eq (by simp) (by simp)
  · exact Alike.of_eq (by simp) (by simp)

theorem alike_failed (runId service now reason : String) :
    Alike record (failedRecord runId service now reason record).1 :=
  Alike.of_eq (by simp [failedRecord]) (by simp [failedRecord])

theorem alike_recovered (runId service now : String) :
    Alike record (recoveredRecord runId service now record).1 := by
  rw [recoveredRecord]
  split
  · exact Alike.of_eq (by simp) (by simp)
  · exact Alike.refl record

theorem alike_degraded (runId service now : String) :
    Alike record (degradedRecord runId service now record).1 := by
  rw [degradedRecord]
  split
  · exact Alike.of_eq (by simp) (by simp)
  · exact Alike.refl record

theorem alike_compareHash (hash : String) : Alike record (compareHashRecord hash record) := by
  rw [compareHashRecord]
  split
  · exact ⟨rfl, rfl⟩
  · exact Alike.refl record

theorem alike_paused (value : Bool) : Alike record (pausedRecord value record) := by
  rw [pausedRecord]
  split
  · exact ⟨rfl, rfl⟩
  · exact Alike.refl record

theorem alike_watchSyncBegin : Alike record (watchSyncBegin record).1 := by
  rw [watchSyncBegin]
  split
  · exact ⟨rfl, rfl⟩
  · exact Alike.refl record

theorem alike_watchSyncKeep (fresh : HandleId) : Alike record (watchSyncKeep fresh record) := by
  rw [watchSyncKeep]
  split
  · exact ⟨rfl, rfl⟩
  · exact Alike.refl record

theorem alike_captureSyncBegin : Alike record (captureSyncBegin record).1 := by
  rw [captureSyncBegin]
  split
  · exact ⟨rfl, rfl⟩
  · exact Alike.refl record

theorem alike_captureSyncKeep (fresh : HandleId) :
    Alike record (captureSyncKeep fresh record) := by
  rw [captureSyncKeep]
  split
  · exact ⟨rfl, rfl⟩
  · exact Alike.refl record

theorem alike_watcherSynced (answers : LaunchAnswers) :
    Alike record (watcherSynced answers record).1 := by
  simp only [watcherSynced]
  split
  · exact (alike_watchSyncBegin record).trans (alike_watchSyncKeep _ answers.watchHandle)
  · exact alike_watchSyncBegin record

theorem alike_captureSynced (answers : LaunchAnswers) :
    Alike record (captureSynced answers record).1 := by
  simp only [captureSynced]
  split
  · exact (alike_captureSyncBegin record).trans (alike_captureSyncKeep _ answers.captureHandle)
  · exact alike_captureSyncBegin record

end Alike

/-- Recomputing its state keeps the records of a run. -/
theorem keepsRecords_recompute (run : RunRecord) : KeepsRecords run (recomputeRunState run).1 :=
  KeepsRecords.of_services (sameRun_recompute run).runId
    (fun name => by rw [recomputeRunState_services])

/-- The locked steps of a launch on the record of its service. -/
def isLaunch : RunOp → Bool
  | .applyPrepared .. | .store .. => true
  | _ => false

/-- No other step changes more of a record than `Alike` leaves open. -/
theorem keepsRecords_apply (op : RunOp) (h : isLaunch op = false) (run : RunRecord) :
    KeepsRecords run (op.apply run).1 := by
  cases op with
  | beginRestart service now =>
      exact keepsRecords_updateAndRecompute (alike_beginRestart · run.runId service now) run service
  | restarted service now => exact keepsRecords_updateService (fun _ => ⟨rfl, rfl⟩) run service
  | markReady service now fresh =>
      exact keepsRecords_updateAndRecompute (alike_ready · run.runId service now fresh) run service
  | markFailed service now reason =>
      exact keepsRecords_updateAndRecompute (alike_failed · run.runId service now reason) run
        service
  | transition service now change =>
      cases change with
      | healthy => exact KeepsRecords.refl run
      | recoverToReady =>
          exact keepsRecords_updateAndRecompute (alike_recovered · run.runId service now) run
            service
      | markDegraded =>
          exact keepsRecords_updateAndRecompute (alike_degraded · run.runId service now) run service
  | compareHash service hash =>
      exact keepsRecords_updateService (alike_compareHash · hash) run service
  | syncWatcher service => exact keepsRecords_updateService alike_watchSyncBegin run service
  | keepWatcher service fresh =>
      exact keepsRecords_updateService (alike_watchSyncKeep · fresh) run service
  | syncCapture service => exact keepsRecords_updateService alike_captureSyncBegin run service
  | keepCapture service fresh =>
      exact keepsRecords_updateService (alike_captureSyncKeep · fresh) run service
  | setWatchPaused service value =>
      cases service with
      | some service => exact keepsRecords_updateService (alike_paused · value) run service
      | none => exact keepsRecords_map (fun _ record => alike_paused record value) run
  | recompute => exact keepsRecords_recompute run
  | stopHandles =>
      exact keepsRecords_map (f := fun _ record => bareRecord record) (fun _ _ => ⟨rfl, rfl⟩) run
  | stopAll now =>
      have hmap := keepsRecords_map (f := fun name record =>
          (setServiceState run.runId name now record .stopped).1)
        (fun _ record => Alike.of_eq (by simp) (by simp)) run
      exact ⟨rfl, hmap.records⟩
  | reconcile status =>
      refine ⟨rfl, fun name record' hget =>
        (keepsRecords_map (fun name record => ?_) run).records name record' hget⟩
      split
      · exact ⟨rfl, rfl⟩
      · exact Alike.refl record
  | removeMissing removed =>
      simp only [RunOp.apply, removeServicesMissingFromStack]
      split
      · exact KeepsRecords.refl run
      · have hfiltered : KeepsRecords run
            { run with services := run.services.filter (fun name _ => name ∉ removed) } := by
          refine ⟨rfl, fun name record' hget => ?_⟩
          dsimp only at hget
          rw [Std.ExtTreeMap.getElem?_filter'] at hget
          exact ⟨record', (Option.filter_eq_some_iff.mp hget).1, Alike.refl record'⟩
        exact hfiltered.trans (keepsRecords_recompute _)
  | updateResources baseEnv =>
      exact KeepsRecords.of_services (sameRun_apply run (.updateResources baseEnv)).runId
        (fun name => by rw [RunOp.apply, updateRunLaunchResources_services])
  | applyPrepared service prepared | store service record => cases h

section Launch

variable (answers : LaunchAnswers) (service : String) (s : LaunchState)

theorem keepsRecords_watcherSynced :
    KeepsRecords s.run (s.update service (watcherSynced answers)).run :=
  keepsRecords_updateService (alike_watcherSynced · answers) s.run service

theorem keepsRecords_captureSynced :
    KeepsRecords s.run (s.update service (captureSynced answers)).run :=
  keepsRecords_updateService (alike_captureSynced · answers) s.run service

theorem keepsRecords_markFailed (now reason : String) :
    KeepsRecords s.run (s.markFailed service now reason).run :=
  keepsRecords_updateAndRecompute (alike_failed · s.run.runId service now reason) s.run service

theorem keepsRecords_markReady (now : String) (fresh : HandleId) :
    KeepsRecords s.run (s.markReady service now fresh).run :=
  keepsRecords_updateAndRecompute (alike_ready · s.run.runId service now fresh) s.run service

theorem keepsRecords_handleReadiness (noWait : Bool) :
    KeepsRecords s.run (handleReadiness answers noWait service s).1.run := by
  rw [handleReadiness]
  split
  · exact KeepsRecords.refl s.run
  · split
    · exact keepsRecords_markReady service s _ _
    · exact keepsRecords_markFailed service s _ _

variable (prepared : PreparedService)

theorem launches_syncUnchanged :
    Launches prepared service s.run (syncUnchangedService answers service prepared s).run := by
  have happlied : Launches prepared service s.run
      (s.update service (fun record => applyPreparedToRuntime record prepared false)).run :=
    launches_applyPrepared prepared service s.run
  rw [syncUnchangedService]
  exact (happlied.then_keeps (keepsRecords_watcherSynced answers service _)).then_keeps
    (keepsRecords_captureSynced answers service _)

theorem launches_replaced {record : ServiceRecord} (h : From prepared record) :
    Launches prepared service s.run
      ((s.replace service record).update service (watcherSynced answers)).run := by
  have hreplaced : Launches prepared service s.run (s.replace service record).run :=
    launches_replace prepared service h s.run
  exact hreplaced.then_keeps (keepsRecords_watcherSynced answers service _)

theorem launches_failedInit (error : String) :
    Launches prepared service s.run (recordFailedInitService answers service prepared error s).run :=
  launches_replaced answers service s prepared (from_intoServiceRecord prepared _ _ _)

theorem launches_storeResult :
    Launches prepared service s.run (storeServiceLaunchResult answers service prepared s).run := by
  refine launches_replaced answers service s prepared ?_
  simp only [launchResultRecord]
  split
  · exact from_intoServiceRecord prepared _ _ _
  · exact from_intoServiceRecord prepared _ _ _

/-- From the unit start on: a port that could not be released leaves the record as it was. -/
theorem startService_records (noWait : Bool) (existing : BTreeMap ExistingServiceSnapshot) :
    (stores (startFate answers existing service prepared) = true
        ∧ Launches prepared service s.run
          (startService answers noWait existing service prepared s).1.run)
      ∨ (stores (startFate answers existing service prepared) = false
        ∧ KeepsRecords s.run
          (startService answers noWait existing service prepared s).1.run) := by
  simp only [startService, startFate]
  cases releasePrevious answers existing service prepared with
  | error err => exact Or.inr ⟨rfl, KeepsRecords.refl s.run⟩
  | ok u =>
      have hstored := launches_storeResult answers service
        { s with starts := s.starts ++ [⟨service, existing.contains service, s.run⟩] } prepared
      cases answers.start with
      | error err => exact Or.inl ⟨rfl, hstored⟩
      | ok v =>
          have hcaptured := hstored.then_keeps (keepsRecords_captureSynced answers service _)
          refine Or.inl ⟨by dsimp only; split <;> rfl, ?_⟩
          dsimp only
          split
          · exact hcaptured.then_keeps (keepsRecords_markFailed service _ _ _)
          · exact hcaptured.then_keeps (keepsRecords_handleReadiness answers service _ noWait)

/-- **A LAUNCH** leaves the record of its service as it prepared it, in the branches that
    store a record, and every other record as it was. -/
theorem launchService_records (plan : StackPlan) (noWait force : Bool)
    (existing : BTreeMap ExistingServiceSnapshot) (h : answers.prepared = .ok prepared) :
    (stores (fate plan force existing answers service) = true
        ∧ Launches prepared service s.run
          (launchService plan noWait force existing answers service s).1.run)
      ∨ (stores (fate plan force existing answers service) = false
        ∧ KeepsRecords s.run
          (launchService plan noWait force existing answers service s).1.run) := by
  rw [launchService, fate, h]
  cases plan.services[service]? with
  | none => exact Or.inr ⟨rfl, KeepsRecords.refl s.run⟩
  | some svc =>
      dsimp only
      split
      · exact Or.inl ⟨rfl, launches_syncUnchanged answers service s prepared⟩
      · cases initResult answers svc with
        | error err => exact Or.inl ⟨rfl, launches_failedInit answers service s prepared err⟩
        | ok u => exact startService_records answers service s prepared noWait existing

/-- A service that could not be prepared is not launched. -/
theorem launchService_refused (plan : StackPlan) (noWait force : Bool)
    (existing : BTreeMap ExistingServiceSnapshot) {err : String}
    (h : answers.prepared = .error err) :
    fate plan force existing answers service = .refused
      ∧ (launchService plan noWait force existing answers service s).1 = s := by
  rw [launchService, fate, h]
  cases plan.services[service]? with
  | none => exact ⟨rfl, rfl⟩
  | some svc => exact ⟨rfl, rfl⟩

end Launch

/-! ## The invariant -/

/-- A record is what its last preparation gave. -/
def Comes (tools : Tools) (prep : Preparation) (name : String) (record : ServiceRecord) : Prop :=
  ∃ prepared, prepareService tools prep.files prep.args name prep.service = .ok prepared
    ∧ From prepared record

/-- Runs and manifests are stored under their ids, and every record is what its last
    preparation gave. -/
structure Sound (tools : Tools) (inputs : String → String → Option Preparation) (w : World) :
    Prop where
  keyed : Keyed w
  comes : ∀ (id : String) (run : RunRecord), w.runs[id]? = some run →
    ∀ (name : String) (record : ServiceRecord), run.services[name]? = some record →
      ∃ prep, inputs id name = some prep ∧ Comes tools prep name record

theorem Comes.alike {tools : Tools} {prep : Preparation} {name : String}
    {record record' : ServiceRecord} (h : Comes tools prep name record)
    (h' : Alike record record') : Comes tools prep name record' := by
  obtain ⟨prepared, hprepared, hfrom⟩ := h
  exact ⟨prepared, hprepared, hfrom.alike h'⟩

section Sound

variable {tools : Tools} {inputs : String → String → Option Preparation} {w w' : World}

theorem Sound.of_same (h : Sound tools inputs w) (hruns : w'.runs = w.runs)
    (hmanifests : w'.manifests = w.manifests) : Sound tools inputs w' :=
  ⟨h.keyed.of_same hruns hmanifests, hruns ▸ h.comes⟩

/-- A run is replaced together with what its services were prepared from. -/
theorem Sound.insert_launched {inputs' : String → String → Option Preparation}
    (h : Sound tools inputs w) {id : String} {run run' : RunRecord}
    (hrun : w.runs[id]? = some run) (hid : run'.runId = run.runId)
    (hother : ∀ id' name, id' ≠ id → inputs' id' name = inputs id' name)
    (hcomes : ∀ (name : String) (record : ServiceRecord), run'.services[name]? = some record →
      ∃ prep, inputs' id name = some prep ∧ Comes tools prep name record) :
    Sound tools inputs' { w with runs := w.runs.insert id run' } := by
  refine ⟨⟨fun id' run'' hget => ?_, h.keyed.manifests⟩, fun id' run'' hget => ?_⟩
  · rw [Std.ExtTreeMap.getElem?_insert] at hget
    split at hget
    · next heq =>
        obtain rfl := Option.some.inj hget
        obtain rfl := Std.LawfulEqCmp.eq_of_compare heq
        exact hid.trans (h.keyed.runs id run hrun)
    · exact h.keyed.runs id' run'' hget
  · intro name record hrecord
    rw [Std.ExtTreeMap.getElem?_insert] at hget
    split at hget
    · next heq =>
        obtain rfl := Option.some.inj hget
        obtain rfl := Std.LawfulEqCmp.eq_of_compare heq
        exact hcomes name record hrecord
    · next hne =>
        have hne' : id' ≠ id := by
          rintro rfl
          exact hne Std.ReflCmp.compare_self
        obtain ⟨prep, hprep, hold⟩ := h.comes id' run'' hget name record hrecord
        exact ⟨prep, (hother id' name hne').trans hprep, hold⟩

/-- A run is replaced by one that keeps its records. -/
theorem Sound.insert_run (h : Sound tools inputs w) {id : String} {run run' : RunRecord}
    (hrun : w.runs[id]? = some run) (hkeeps : KeepsRecords run run') :
    Sound tools inputs { w with runs := w.runs.insert id run' } := by
  refine h.insert_launched hrun hkeeps.runId (fun _ _ _ => rfl) (fun name record' hrecord => ?_)
  obtain ⟨record, hold, halike⟩ := hkeeps.records name record' hrecord
  obtain ⟨prep, hprep, hcomes⟩ := h.comes id run hrun name record hold
  exact ⟨prep, hprep, hcomes.alike halike⟩

/-- A step that keeps the records of its run keeps the invariant. -/
theorem Sound.lock (h : Sound tools inputs w) (op : RunOp) (hop : isLaunch op = false)
    (id : String) : Sound tools inputs (w.lock id op) := by
  rw [World.lock]
  cases hrun : w.runs[id]? with
  | none => exact h
  | some run => exact (h.insert_run hrun (keepsRecords_apply op hop run)).of_same rfl rfl

/-- The accesses to a world that store no prepared service. -/
def keepsSound : Effect → Bool
  | .lock _ op => !isLaunch op
  | .createRun run => run.services.isEmpty
  | _ => true

theorem Sound.apply (h : Sound tools inputs w) {e : Effect} (he : keepsSound e = true) :
    Sound tools inputs (e.apply w) := by
  cases e with
  | lock id op =>
      simp only [keepsSound, Bool.not_eq_true'] at he
      exact h.lock op he id
  | createRun run =>
      refine ⟨keyed_apply h.keyed (.createRun run), fun id run' hget name record hrecord => ?_⟩
      change (w.runs.insert run.runId run)[id]? = some run' at hget
      rw [Std.ExtTreeMap.getElem?_insert] at hget
      split at hget
      · obtain rfl := Option.some.inj hget
        simp only [keepsSound, Std.ExtTreeMap.isEmpty_iff] at he
        rw [he] at hrecord
        simp at hrecord
      · exact h.comes id run' hget name record hrecord
  | purge id =>
      refine ⟨keyed_apply h.keyed (.purge id), fun id' run' hget => ?_⟩
      change (w.runs.erase id)[id']? = some run' at hget
      rw [Std.ExtTreeMap.getElem?_erase] at hget
      split at hget
      · exact nomatch hget
      · exact h.comes id' run' hget
  | collect expired =>
      refine ⟨keyed_apply h.keyed (.collect expired), fun id' run' hget => ?_⟩
      simp only [Effect.apply, Std.ExtTreeMap.getElem?_filter'] at hget
      exact h.comes id' run' (Option.filter_eq_some_iff.mp hget).1
  | writeManifest manifest => exact ⟨keyed_apply h.keyed (.writeManifest manifest), h.comes⟩
  | lockGlobal key op =>
      simp only [Effect.apply, World.lockGlobal]
      split <;> exact h.of_same rfl rfl
  | upsertGlobal global | raise handle | storePaused handle value | allocate
  | unit action owner unitName | beginLaunch key | writeGlobalManifest manifest | serve =>
      exact h.of_same rfl rfl

end Sound

section Step

variable {tools : Tools} {inputs : String → String → Option Preparation} {w : World}

/-- A new run has no records. -/
theorem sound_upNewRun (h : Sound tools inputs w) (outside : Outside) (build : Build)
    (ports : Ports) (snapshots : BTreeMap String) :
    Sound tools inputs
      { w with runs := (upNewRun outside build ⟨ports, w.runs, snapshots⟩).2.runs } := by
  have hlayout : ∀ s : Store, (initializeNewRunLayout outside build s).2.runs = s.runs := by
    intro s
    rw [initializeNewRunLayout]
    repeat' split
    all_goals rfl
  rw [upNewRun]
  have hruns := hlayout ⟨ports, w.runs, snapshots⟩
  cases hcall : initializeNewRunLayout outside build ⟨ports, w.runs, snapshots⟩ with
  | mk result s =>
      rw [hcall] at hruns
      change s.runs = w.runs at hruns
      cases result with
      | error failure => exact h.of_same hruns rfl
      | ok u =>
          dsimp only
          cases buildNewLaunchResources outside build s.ports with
          | mk result ports =>
              cases result with
              | error failure => exact h.of_same hruns rfl
              | ok resources =>
                  by_cases hmem : build.runId ∈ w.runs
                  · simp only [createRunRecord, hruns, if_pos hmem]
                    exact h
                  · simp only [createRunRecord, hruns, if_neg hmem]
                    exact (h.apply (e := .createRun (.new build.runId build.plan.name
                      build.projectDir build.configDir resources.baseEnv outside.now))
                      Std.ExtTreeMap.isEmpty_empty).of_same rfl rfl

/-- A refresh removes records, and writes the base environment, until its launches. -/
theorem sound_refreshRun (h : Sound tools inputs w) (outside : Outside) (build : Build)
    (ports : Ports) (snapshots : BTreeMap String) :
    Sound tools inputs
      { w with runs := (refreshRun outside build ⟨ports, w.runs, snapshots⟩).2.runs } := by
  simp only [refreshRun]
  cases hrun : w.runs[build.runId]? with
  | none => exact h
  | some run =>
      dsimp only
      have hremoved := keepsRecords_apply (.removeMissing (removedServices run build.plan)) rfl run
      cases releaseRemoved outside.host build.runId (existingServices run)
          (removedServices run build.plan) ports with
      | mk result ports =>
          cases result with
          | error err => exact h.insert_run hrun hremoved
          | ok u =>
              dsimp only
              cases buildRefreshLaunchResources outside build (existingServices run)
                  run.stoppedAt.isNone ports with
              | mk result ports =>
                  cases result with
                  | error failure => exact h.insert_run hrun hremoved
                  | ok resources =>
                      have hupdated := keepsRecords_apply (.updateResources resources.baseEnv) rfl
                        (removeServicesMissingFromStack run (removedServices run build.plan)).1
                      refine ((h.insert_run hrun hremoved).insert_run
                        Std.ExtTreeMap.getElem?_insert_self hupdated).of_same ?_ rfl
                      simp only [snapshotRunConfig]
                      split <;> rfl

theorem sound_persistManifest (h : Sound tools inputs w) (written : Except String Unit)
    (runId : String) : Sound tools inputs (persistManifest written runId w).2 := by
  rw [persistManifest]
  cases w.runs[runId]? with
  | none => exact h
  | some run =>
      cases written with
      | error err => exact h
      | ok u => exact h.apply (e := .writeManifest (persistedRun run)) rfl

theorem sound_stopUnits (h : Sound tools inputs w) (kill : Bool) (runId : String)
    (services : List (String × Option Port × Option Port)) :
    Sound tools inputs (stopUnits kill runId services w) := by
  induction services generalizing w with
  | nil => exact h
  | cons service services ih =>
      rw [stopUnits, List.foldl_cons]
      refine ih ?_
      cases kill <;> exact h.of_same rfl rfl

theorem sound_stopRun (answers : Answers) (kill purge : Bool) (runId : String)
    {s : State} (h : Sound tools inputs s.world) :
    Sound tools inputs (stopRun answers kill purge runId s).2.world := by
  rw [stopRun]
  have hhandles := h.lock .stopHandles rfl runId
  dsimp only
  cases (s.world.lock runId .stopHandles).runs[runId]? with
  | none => exact hhandles
  | some run =>
      have hunits := sound_stopUnits hhandles kill runId (listServices run)
      dsimp only
      cases releaseServices answers.host runId (listServices run) s.ports with
      | mk result ports =>
          cases result with
          | error err => exact hunits
          | ok u =>
              have hpersisted := sound_persistManifest
                (hunits.lock (.stopAll answers.now) rfl runId) answers.written runId
              dsimp only
              cases hcall : persistManifest answers.written runId
                  ((stopUnits kill runId (listServices run)
                    (s.world.lock runId .stopHandles)).lock runId (.stopAll answers.now)) with
              | mk result w =>
                  rw [hcall] at hpersisted
                  cases result with
                  | error err => exact hpersisted
                  | ok u =>
                      dsimp only
                      cases w.runs[runId]? with
                      | none => exact hpersisted
                      | some run =>
                          dsimp only
                          split
                          · exact hpersisted.apply (e := .purge runId) rfl
                          · exact hpersisted

/-- Every record that a launch leaves is what its last preparation gave. -/
theorem launched_comes (h : Sound tools inputs w) {l : Launching} {run : RunRecord}
    (hrun : w.runs[l.build.runId]? = some run) (files : Files) {answers : LaunchAnswers}
    {name : String} (hprepared : answers.prepared = l.prepared tools files name)
    {launched : LaunchState × Except String Unit}
    (hlaunched : launchService l.build.plan l.noWait l.force l.existing answers name ⟨run, [], []⟩
      = launched) :
    launched.1.run.runId = run.runId
      ∧ ∀ (service : String) (record : ServiceRecord),
        launched.1.run.services[service]? = some record →
        ∃ prep, (if service = name then
            l.input files answers name (inputs l.build.runId name)
          else inputs l.build.runId service) = some prep ∧ Comes tools prep service record := by
  have hbefore := h.comes l.build.runId run hrun
  cases hprep : l.prepared tools files name with
  | error err =>
      obtain ⟨hfate, hrefused⟩ := launchService_refused answers name ⟨run, [], []⟩
        l.build.plan l.noWait l.force l.existing (hprepared.trans hprep)
      rw [hlaunched] at hrefused
      have hstores : ¬ stores Fate.refused = true := Bool.false_ne_true
      rw [hrefused, Launching.input, hfate, if_neg hstores]
      refine ⟨rfl, fun service record hrecord => ?_⟩
      by_cases hservice : service = name
      · rw [if_pos hservice, ← hservice]
        exact hbefore service record hrecord
      · rw [if_neg hservice]
        exact hbefore service record hrecord
  | ok prepared =>
      have hrecords := launchService_records answers name ⟨run, [], []⟩ prepared
        l.build.plan l.noWait l.force l.existing (hprepared.trans hprep)
      rw [hlaunched] at hrecords
      obtain ⟨hstores, hlaunches⟩ | ⟨hstores, hkeeps⟩ := hrecords
      · rw [Launching.input, hstores, if_pos rfl]
        refine ⟨hlaunches.runId, fun service record hrecord => ?_⟩
        by_cases hservice : service = name
        · obtain rfl := hservice
          rw [Launching.prepared] at hprep
          cases hget : l.build.plan.services[service]? with
          | none => rw [hget] at hprep; exact nomatch hprep
          | some svc =>
              rw [hget] at hprep
              rw [if_pos rfl]
              exact ⟨_, rfl, prepared, hprep, hlaunches.stored record hrecord⟩
        · rw [if_neg hservice]
          obtain ⟨old, hold, halike⟩ := hlaunches.others service record hrecord hservice
          obtain ⟨prep, hget, hcomes⟩ := hbefore service old hold
          exact ⟨prep, hget, hcomes.alike halike⟩
      · rw [Launching.input, hstores, if_neg Bool.false_ne_true]
        refine ⟨hkeeps.runId, fun service record hrecord => ?_⟩
        obtain ⟨old, hold, halike⟩ := hkeeps.records service record hrecord
        obtain ⟨prep, hget, hcomes⟩ := hbefore service old hold
        refine ⟨prep, ?_, hcomes.alike halike⟩
        by_cases hservice : service = name
        · rw [if_pos hservice, ← hservice]
          exact hget
        · rw [if_neg hservice]
          exact hget

theorem sound_launchStep {s : System} (h : Sound tools s.inputs s.world) (files : Files)
    (host : Host) (answers : LaunchAnswers) (l : Launching) :
    Sound tools (launchStep tools files host answers l s).1.inputs
      (launchStep tools files host answers l s).1.world := by
  rw [launchStep]
  cases hrun : s.world.runs[l.build.runId]? with
  | none => exact h
  | some run =>
      cases l.todo with
      | nil => exact h.lock .recompute rfl l.build.runId
      | cons name todo =>
          dsimp only
          generalize hanswers : { answers with prepared := l.prepared tools files name } = answers'
          generalize hlaunched : launchService l.build.plan l.noWait l.force l.existing answers'
            name ⟨run, [], []⟩ = launched
          obtain ⟨hid, hcomes⟩ := launched_comes h hrun files (by rw [← hanswers]) hlaunched
          have hsound : Sound tools (fun id service =>
              if id = l.build.runId ∧ service = name then
                l.input files answers' name (s.inputs l.build.runId name)
              else s.inputs id service)
              { s.world with runs := s.world.runs.insert l.build.runId launched.1.run } :=
            h.insert_launched hrun hid (fun _ _ hne => if_neg (fun h => hne h.1))
              (fun service record hrecord => by simpa using hcomes service record hrecord)
          cases launched.2 with
          | ok u => exact hsound.of_same rfl rfl
          | error err => exact hsound.of_same rfl rfl

theorem sound_up {s : System} (h : Sound tools s.inputs s.world) (request : PlanRequest)
    (answers : UpAnswers) :
    Sound tools (up request answers s).inputs (up request answers s).world := by
  rw [up]
  cases answers.config with
  | error err => exact h
  | ok config =>
      dsimp only
      cases stackPlanFiltered config request.stack request.services with
      | error err => exact h
      | ok plan =>
          dsimp only
          generalize (if request.newRun = false ∧ request.runId = none then
            findLatestRunForProjectStack answers.canonical s.world request.projectDir request.stack
            else none) = latest
          cases latest with
          | none =>
              have hsound := sound_upNewRun h answers.outside
                { runId := (none : Option String).getD (request.runId.getD answers.newRunId)
                  plan := plan
                  globals := globalsMap config
                  projectDir := request.projectDir
                  configDir := (parentPath request.configPath).getD request.projectDir }
                s.ports s.snapshots
              dsimp only
              split
              · exact hsound
              · exact hsound
          | some runId =>
              have hsound := sound_refreshRun h answers.outside
                { runId := (some runId).getD (request.runId.getD answers.newRunId)
                  plan := plan
                  globals := globalsMap config
                  projectDir := request.projectDir
                  configDir := (parentPath request.configPath).getD request.projectDir }
                s.ports s.snapshots
              dsimp only
              split
              · exact hsound
              · exact hsound

variable {parse : String → Option ConfigFile}

/-- A restored run is loaded from its manifest, and prepared from what `loadInputs` says. -/
theorem loadRun_comes {disk : Disk} {snapshots : BTreeMap String} {manifest : PersistedRun}
    {run : RunRecord} (h : loadRun tools parse disk snapshots manifest = some run) :
    run.runId = manifest.runId
      ∧ ∀ (name : String) (record : ServiceRecord), run.services[name]? = some record →
        ∃ prep, loadInputs tools parse disk snapshots manifest name = some prep
          ∧ Comes tools prep name record := by
  have hid : (loadedRun manifest).runId = manifest.runId := by
    rw [loadedRun]
    split <;> rfl
  simp only [loadRun] at h
  split at h
  · cases hconfig : snapshotOf parse snapshots (loadedRun manifest).runId with
    | none => rw [hconfig] at h; exact nomatch h
    | some config =>
        rw [hconfig] at h
        dsimp only at h
        cases hrestored : convertManifestToRunRecord tools disk.files disk.globalManifests
            (loadedRun manifest) config with
        | error err => rw [hrestored] at h; exact nomatch h
        | ok restored =>
            rw [hrestored] at h
            obtain rfl := Option.some.inj h
            obtain ⟨hrunId, plan, globals, hplan, hglobals, hservices⟩ :=
              convertManifestToRunRecord_ok hrestored
            refine ⟨hrunId.trans hid, fun name record hrecord => ?_⟩
            obtain ⟨service, saved, prepared, hservice, hprepared, rfl⟩ :=
              hservices name record hrecord
            refine ⟨⟨disk.files, restoreArgs (loadedRun manifest) config plan globals, service⟩, ?_,
              prepared, hprepared, rfl, rfl⟩
            simp only [loadInputs, hconfig, hplan, hglobals, hservice, Option.map_some]
  · exact nomatch h

theorem sound_daemonRestart {s : System} (h : Sound tools s.inputs s.world) (disk : Disk) :
    Sound tools (daemonRestart tools parse disk s).inputs
      (daemonRestart tools parse disk s).world := by
  have hload : ∀ (id : String) (run : RunRecord),
      (daemonRestart tools parse disk s).world.runs[id]? = some run →
      ∃ manifest, s.world.manifests[id]? = some manifest
        ∧ loadRun tools parse disk s.snapshots manifest = some run := by
    intro id run hget
    simp only [daemonRestart, Std.ExtTreeMap.getElem?_filterMap'] at hget
    exact Option.bind_eq_some_iff.mp hget
  refine ⟨⟨fun id run hget => ?_, h.keyed.manifests⟩, fun id run hget name record hrecord => ?_⟩
  · obtain ⟨manifest, hmanifest, hrun⟩ := hload id run hget
    exact (loadRun_comes hrun).1.trans (h.keyed.manifests id manifest hmanifest)
  · obtain ⟨manifest, hmanifest, hrun⟩ := hload id run hget
    obtain ⟨prep, hprep, hcomes⟩ := (loadRun_comes hrun).2 name record hrecord
    refine ⟨prep, ?_, hcomes⟩
    simp only [daemonRestart, hmanifest]
    exact hprep

theorem sound_step (s : System) (a : Action) (h : Sound tools s.inputs s.world) :
    Sound tools (step tools parse s a).inputs (step tools parse s a).world := by
  cases a with
  | up request answers => exact sound_up h request answers
  | launchNext position files host answers =>
      simp only [step]
      cases s.launching[position]? with
      | none => exact h
      | some l => exact sound_launchStep h files host answers l
  | locked runId op =>
      simp only [step]
      split
      · next hop =>
          have hlaunch : isLaunch op = false := by
            cases op <;> first | rfl | exact nomatch hop
          exact h.lock op hlaunch runId
      · exact h
  | stop answers kill purge runId => exact sound_stopRun answers kill purge runId h
  | gc expired => exact h.apply (e := .collect expired) rfl
  | persist runId written => exact sound_persistManifest h written runId
  | daemonRestart disk => exact sound_daemonRestart h disk

/-- In every run of the daemon, every record is what its last preparation gave. -/
theorem sound_run (tools : Tools) (parse : String → Option ConfigFile) (ports : Ports)
    (as : List Action) :
    Sound tools (run (step tools parse) (start ports) as).inputs
      (run (step tools parse) (start ports) as).world := by
  have hstep : ∀ s a, Sound tools s.inputs s.world →
      Sound tools (step tools parse s a).inputs (step tools parse s a).world := sound_step
  refine run_invariant (step tools parse) hstep as (start ports) ?_
  refine ⟨⟨fun id run h => ?_, fun id manifest h => ?_⟩, fun id run h => ?_⟩
  all_goals simp [start, DevstackSystem.start] at h

end Step

/-! ## Persist and restore -/

section Restores

variable (tools : Tools) (parse : String → Option ConfigFile) (disk : Disk)

/-- Persisted, and restored by a new daemon, a run has its records again, without their
    handles. -/
def Restores (s : System) (run : RunRecord) : Prop :=
  ∃ run', (step tools parse (step tools parse s (.persist run.runId (.ok ())))
        (.daemonRestart disk)).world.runs[run.runId]? = some run'
    ∧ ∀ name : String, run'.services[name]? = (run.services[name]?).map bare

/-- A record was last prepared from what is recorded: from the service as the snapshot has
    it, from the recorded arguments, and from env files that are as they were; and the hash
    over its watched files can be computed. -/
structure RecordedService (args : PrepareArgs) (service : Option ServiceConfig)
    (record : ServiceRecord) (prep : Preparation) : Prop where
  service : ∃ svc, service = some svc ∧ launchPart svc = launchPart prep.service
  inputs : SameInputs prep.args args
  files : ∀ path ∈ record.launch.watchExtraFiles ++ prep.args.globalEnvFile.toList,
    disk.files path = prep.files path
  hash : ∃ hash, tools.watchHash disk.files record.launch.cwd
    (hashPatterns record.spec.watchPatterns) record.spec.ignorePatterns
    record.launch.watchExtraFiles record.launch.watchFingerprint = .ok hash

/-- Every record of a run was last prepared from what its snapshot, its manifest and the
    globals' manifests record. -/
def Recorded (s : System) (run : RunRecord) : Prop :=
  ∃ config plan globals, snapshotOf parse s.snapshots run.runId = some config
    ∧ stackPlan config run.stack = .ok plan
    ∧ globalPortMap tools run.projectDir disk.globalManifests (globalsMap config) = .ok globals
    ∧ ∀ (name : String) (record : ServiceRecord), run.services[name]? = some record →
      ∀ prep, s.inputs run.runId name = some prep →
        RecordedService tools disk
          (restoreArgs (loadedRun (persistedRun run)) config plan globals) plan.services[name]?
          record prep

variable {tools parse disk}

/-- A service that was prepared from what is recorded is prepared again as its record has
    it. -/
theorem RecordedService.prepared {args : PrepareArgs} {service : Option ServiceConfig}
    {name : String} {record : ServiceRecord} {prep : Preparation}
    (h : RecordedService tools disk args service record prep)
    (hcomes : Comes tools prep name record) :
    ∃ svc prepared, service = some svc
      ∧ prepareService tools disk.files args name svc = .ok prepared
      ∧ prepared.spec = record.spec
      ∧ { prepared.launch with watchHash := record.launch.watchHash } = record.launch := by
  obtain ⟨⟨svc, hservice, hpart⟩, hinputs, hfiles, ⟨hash, hhash⟩⟩ := h
  obtain ⟨prepared, hprepared, hspec, hlaunch⟩ := hcomes
  -- what the disk and the hash are asked for is in the record
  have hcwd : record.launch.cwd = prepared.cwd := by rw [← hlaunch]; rfl
  have hextra : record.launch.watchExtraFiles = prepared.watchExtraFiles := by
    rw [← hlaunch]; rfl
  have hfingerprint : record.launch.watchFingerprint = prepared.watchFingerprint := by
    rw [← hlaunch]; rfl
  have hpatterns : record.spec.watchPatterns = prepared.watchPatterns := by rw [← hspec]; rfl
  have hignore : record.spec.ignorePatterns = prepared.ignorePatterns := by rw [← hspec]; rfl
  rw [hextra] at hfiles
  rw [hcwd, hextra, hfingerprint, hpatterns, hignore] at hhash
  refine ⟨svc, { prepared with watchHash := hash }, hservice, ?_, hspec, ?_⟩
  · have hagain := prepareService_files hprepared hfiles hhash
    rw [hinputs.prepareService, ← prepareService_launchPart, ← hpart,
      prepareService_launchPart] at hagain
    exact hagain
  · rw [← hlaunch]
    rfl

theorem restorable_loadedRun (pathExists : String → Bool) (manifest : PersistedRun) :
    runManifestIsRestorable pathExists (loadedRun manifest)
      = runManifestIsRestorable pathExists manifest := by
  rw [loadedRun]
  split <;> rfl

theorem loadedRun_kept (manifest : PersistedRun) :
    (loadedRun manifest).runId = manifest.runId ∧ (loadedRun manifest).stack = manifest.stack
      ∧ (loadedRun manifest).projectDir = manifest.projectDir
      ∧ (loadedRun manifest).services = manifest.services := by
  rw [loadedRun]
  split <;> exact ⟨rfl, rfl, rfl, rfl⟩

/-- **RESTORE UNDOES PERSIST** for every run, in every state a daemon reaches, whose records
    were last prepared from what is recorded of them. -/
theorem restores_of_recorded (tools : Tools) (parse : String → Option ConfigFile) (disk : Disk)
    (ports : Ports) (as : List Action) (id : String) (record : RunRecord)
    (hrun : (run (step tools parse) (start ports) as).world.runs[id]? = some record)
    (hrestorable : runManifestIsRestorable disk.pathExists (persistedRun record) = true)
    (hrecorded : Recorded tools parse disk (run (step tools parse) (start ports) as) record) :
    Restores tools parse disk (run (step tools parse) (start ports) as) record := by
  have hsound := sound_run tools parse ports as
  generalize run (step tools parse) (start ports) as = s at hrun hrecorded hsound ⊢
  obtain rfl := hsound.keyed.runs id record hrun
  obtain ⟨config, plan, globals, hconfig, hplan, hglobals, hservices⟩ := hrecorded
  obtain ⟨hid, hstack, hproject, hsaved⟩ := loadedRun_kept (persistedRun record)
  have hprepared : ∀ (name : String) (service : ServiceRecord),
      record.services[name]? = some service → ∃ svc prepared,
        plan.services[name]? = some svc
          ∧ prepareService tools disk.files
            (restoreArgs (loadedRun (persistedRun record)) config plan globals) name svc
            = .ok prepared
          ∧ prepared.spec = service.spec
          ∧ { prepared.launch with watchHash := service.launch.watchHash } = service.launch := by
    intro name service hservice
    obtain ⟨prep, hprep, hcomes⟩ := hsound.comes _ record hrun name service hservice
    exact (hservices name service hservice prep hprep).prepared hcomes
  have hplan' : stackPlan config (loadedRun (persistedRun record)).stack = .ok plan := by
    rw [hstack]
    exact hplan
  have hglobals' : globalPortMap tools (loadedRun (persistedRun record)).projectDir
      disk.globalManifests (globalsMap config) = .ok globals := by
    rw [hproject]
    exact hglobals
  obtain ⟨run', hrestored, hrecords⟩ :=
    convertManifestToRunRecord_restores hsaved hplan' hglobals' hprepared
  refine ⟨run', ?_, hrecords⟩
  have hloaded : loadRun tools parse disk s.snapshots (persistedRun record) = some run' := by
    simp only [loadRun, restorable_loadedRun, hrestorable, if_true, hid]
    rw [show (persistedRun record).runId = record.runId from rfl, hconfig]
    dsimp only
    rw [hrestored]
    rfl
  simp only [step, daemonRestart, persistManifest, hrun, Std.ExtTreeMap.getElem?_filterMap',
    Std.ExtTreeMap.getElem?_insert_self, Option.bind_some]
  exact hloaded

end Restores

/-! ## A configuration in another directory -/

/-- A fingerprint of the command, and no watched files. -/
def webTools : Tools where
  render := fun text _ => .ok text
  dotenv := fun _ => .ok []
  encode := fun payload => payload.cmd.toList.map (·.toNat.toUInt8)
  watchHash := fun _ _ _ _ _ _ => .ok "h1"
  home := none
  vars := fun _ => none
  dataDir := .ok "/data"
  projectHash := fun _ => "0a1b2c3d4e5f"

/-- A service that runs in a directory next to its configuration. -/
def webService : ServiceConfig :=
  { ServiceConfig.ofCmd "serve" [] with
    cwd := some "srv"
    port := some (.fixed 8080)
    captureApi := some false }

def webConfig : ConfigFile where
  version := 1
  stackConfigs := Std.ExtTreeMap.ofList
    [("dev", StackConfig.mk (Std.ExtTreeMap.ofList [("web", webService)]))]
  defaultStack := none
  globals := none
  tasks := none
  env := ∅
  envFile := none

def webParse (raw : String) : Option ConfigFile := if raw = "web" then some webConfig else none

def webDisk : Disk where
  files := fun _ => none
  globalManifests := ∅
  pathExists := fun _ => true

def webHost : Host := .lone 7

def webUp (configPath : String) : Action :=
  .up
    { stack := "dev"
      projectDir := "/app"
      runId := none
      noWait := false
      newRun := false
      force := false
      configPath := configPath
      services := [] }
    { config := .ok webConfig
      canonical := id
      newRunId := "r1"
      outside :=
        { host := webHost
          pathExists := fun _ => true
          manifests := []
          globalManifests := []
          directories := .ok ()
          config := .ok "web"
          written := .ok ()
          globals := fun _ => ⟨"", .ok (), none, false, .ok ()⟩
          now := "t0" } }

/-- A launch in which everything succeeds. -/
def webLaunch : Action :=
  .launchNext 0 webDisk.files webHost
    { prepared := .error "not asked"
      init := .ok ()
      start := .ok ()
      releasePort := .ok ()
      releaseListenPort := .ok ()
      watcher := .ok ()
      watchHandle := 1
      proxy := .ok ()
      captureHandle := 2
      readiness := .ok ()
      detailed := "detailed"
      healthHandle := 3
      startedAt := "t1"
      markedAt := "t2" }

/-- An `up` with the project's own configuration. -/
def ownConfig : List Action := [webUp "/app/devstack.toml", webLaunch, webLaunch]

/-- And another, with a copy of it in a directory of its own. -/
def copiedConfig : List Action :=
  ownConfig ++ [webUp "/app/deploy/devstack.toml", webLaunch, webLaunch]

def reached (as : List Action) : System := run (step webTools webParse) (start ⟨∅, []⟩) as

/-- The record of the service in the run. -/
def webRecord (s : System) : Option ServiceRecord :=
  (s.world.runs["r1"]?).bind (fun run => run.services["web"]?)

theorem restores_of_recorded_web : ∃ record, (reached ownConfig).world.runs["r1"]? = some record
    ∧ Restores webTools webParse webDisk (reached ownConfig) record := by
  have hfacts : (do
      let record ← (reached ownConfig).world.runs["r1"]?
      let prep ← (reached ownConfig).inputs "r1" "web"
      let plan ← (stackPlan webConfig "dev").toOption
      let args := restoreArgs (loadedRun (persistedRun record)) webConfig plan ∅
      return decide (record.runId = "r1" ∧ record.stack = "dev" ∧ record.services.keys = ["web"]
        ∧ runManifestIsRestorable webDisk.pathExists (persistedRun record) = true
        ∧ plan.services["web"]? = some prep.service ∧ (prep.files "/app/srv/.env").isNone
        ∧ (record.services["web"]?).map (·.launch.watchExtraFiles) = some ["/app/srv/.env"]
        ∧ prep.args.scope = args.scope ∧ prep.args.projectDir = args.projectDir
        ∧ prep.args.configDir = args.configDir ∧ prep.args.portMap = args.portMap
        ∧ prep.args.listenPortMap = args.listenPortMap
        ∧ prep.args.serviceSchemes = args.serviceSchemes ∧ prep.args.baseEnv = args.baseEnv
        ∧ prep.args.globalEnv = args.globalEnv ∧ prep.args.globalEnvFile = none)
      : Option Bool) = some true := by decide +kernel
  simp only [Option.bind_eq_bind, Option.bind_eq_some_iff, Option.pure_def, Option.some.injEq,
    decide_eq_true_eq] at hfacts
  obtain ⟨record, hrecord, prep, hprep, plan, hplan, hid, hstack, hkeys, hrestorable, hservice,
    hfile, hextra, hscope, hproject, hconfig, hports, hlisten, hschemes, hbase, hglobal, hnone⟩ :=
    hfacts
  have hsnapshot : (reached ownConfig).snapshots["r1"]? = some "web" := by decide +kernel
  have hplan' : stackPlan webConfig "dev" = .ok plan := by
    cases h : stackPlan webConfig "dev" with
    | error err => rw [h] at hplan; exact nomatch hplan
    | ok plan' => rw [h] at hplan; exact congrArg Except.ok (Option.some.inj hplan)
  refine ⟨record, hrecord, restores_of_recorded webTools webParse webDisk ⟨∅, []⟩ ownConfig "r1"
    record hrecord hrestorable ⟨webConfig, plan, ∅, ?_, hstack ▸ hplan', rfl, ?_⟩⟩
  · have hparse : webParse "web" = some webConfig := if_pos rfl
    rw [hid, snapshotOf]
    exact (congrArg (·.bind webParse) hsnapshot).trans hparse
  · intro name service hname prep' hprep'
    obtain rfl : name = "web" := by
      have hmem : name ∈ record.services.keys := by
        rw [Std.ExtTreeMap.mem_keys, Std.ExtTreeMap.mem_iff_isSome_getElem?, hname]
        rfl
      rw [hkeys] at hmem
      exact List.mem_singleton.mp hmem
    rw [hid] at hprep'
    obtain rfl := Option.some.inj (hprep.symm.trans hprep')
    rw [hname] at hextra
    have hextra' : service.launch.watchExtraFiles = ["/app/srv/.env"] := Option.some.inj hextra
    refine ⟨⟨prep.service, hservice, rfl⟩, ⟨hscope, hproject, hconfig, hports, hlisten,
      fun name _ => by rw [hschemes], hbase, hglobal, hnone⟩, fun path hpath => ?_, "h1", rfl⟩
    rw [hextra', hnone] at hpath
    obtain rfl := List.mem_singleton.mp hpath
    exact (Option.isNone_iff_eq_none.mp hfile).symm

/-- **A CONFIGURATION IN ANOTHER DIRECTORY**: after a refresh with a copy of the configuration
    in another directory the run restores, from the same files, with the old directory. -/
theorem copied_config_not_restored : (reached copiedConfig).launching.length = 0
    ∧ (reached copiedConfig).snapshots["r1"]? = some "web"
    ∧ ∃ record, (reached copiedConfig).world.runs["r1"]? = some record
      ∧ runManifestIsRestorable webDisk.pathExists (persistedRun record) = true
      ∧ ¬ Restores webTools webParse webDisk (reached copiedConfig) record := by
  refine ⟨by decide +kernel, by decide +kernel, ?_⟩
  have hfacts : ((reached copiedConfig).world.runs["r1"]?).map (fun record =>
      (record.runId, runManifestIsRestorable webDisk.pathExists (persistedRun record)))
        = some ("r1", true) := by decide +kernel
  obtain ⟨record, hrecord, hpair⟩ := Option.map_eq_some_iff.mp hfacts
  obtain ⟨hid, hrestorable⟩ := Prod.mk.inj hpair
  refine ⟨record, hrecord, hrestorable, ?_⟩
  rintro ⟨run', hrun', hrecords⟩
  rw [hid] at hrun'
  have hbefore : (webRecord (reached copiedConfig)).map (·.launch.cwd) = some "/app/deploy/srv" := by
    decide +kernel
  have hafter : (webRecord (step webTools webParse (step webTools webParse (reached copiedConfig)
      (.persist "r1" (.ok ()))) (.daemonRestart webDisk))).map (·.launch.cwd) = some "/app/srv" := by
    decide +kernel
  rw [webRecord, hrecord, Option.bind_some] at hbefore
  rw [webRecord, hrun', Option.bind_some, hrecords, Option.map_map] at hafter
  exact absurd (hbefore.symm.trans hafter) (by decide)

end DevstackRestoredRuns
