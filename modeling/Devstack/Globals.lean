import Devstack.Lib.Machine
import Devstack.Restore

/-! # Globals — the records of the globals against the units that run

    `ensure_globals` of `src/app/commands/ensure_globals.rs`, turn by turn, with the
    watcher's `restart_global_no_wait` and the records a new daemon restores.  A unit
    keeps the properties it was last started with; a record is rewritten by every
    call.  A call that finds the unit active leaves it running. -/

namespace DevstackGlobals

open DevstackMachine DevstackModel DevstackStores DevstackConfig DevstackLaunch DevstackPorts
  DevstackExclusivity DevstackResources DevstackPrepare DevstackRestore DevstackWorld

/-! ## The daemon's globals -/

/-- A unit the process manager has: what it was last started with. -/
structure ManagedUnit where
  plan : PreparedService
  active : Bool
  deriving DecidableEq

/-- The registry of ports, the `GlobalStore`, the manifests on disk by their key,
    and the manager's units by their name. -/
structure System where
  ports : Ports
  globals : BTreeMap GlobalRecord
  manifests : BTreeMap PersistedGlobal
  units : BTreeMap ManagedUnit

/-- How `start_transient_service` ends: started; refused, with a unit of that name
    left as it is; or failed after such a unit was ended. -/
inductive Started where
  | ok
  | refused (err : String)
  | lost (err : String)
  deriving DecidableEq

/-- What the outside answers about one global during a call: its directories, whether
    its manifest can be read, the unit's status and start, the wait for readiness with
    the tasks after it, the write of the manifest, the watcher. -/
structure Answers where
  directories : Except String Unit
  readable : Bool
  status : Except String (Option String)
  started : Started
  waited : Except String Unit
  written : Except String Unit
  watcher : Except String HandleId

structure Call where
  globals : BTreeMap ServiceConfig
  projectDir : String
  configPath : String
  configDir : String
  files : Files
  answers : String → Answers
  now : String

section Turn

variable (host : Host) (tools : Tools) (call : Call)

/-- `prepare_global_service`: what it prepares with. -/
def globalArgs (key name : String) (service : ServiceConfig) (port : Option Port) : PrepareArgs :=
  soleArgs (.global key call.projectDir name) call.projectDir call.configDir name service port port

/-- `build_global_record`. -/
def buildGlobalRecord (key name : String) (prepared : PreparedService) (state : ServiceState)
    (lastFailure lastStartedAt : Option String) (watchPaused : Bool) (lifecycle : RunLifecycle)
    (createdAt : String) : GlobalRecord :=
  let service := intoServiceRecord prepared state lastFailure lastStartedAt
  { key, name
    projectDir := call.projectDir
    configPath := call.configPath
    service := { service with runtime := { service.runtime with watchPaused } }
    state := lifecycle
    createdAt
    stoppedAt := none }

/-- `persist_global_manifest`. -/
def persistGlobalManifest (written : Except String Unit) (key : String) (s : System) :
    Except String Unit × System :=
  match s.globals[key]? with
  | none => (.error s!"global {key} not found", s)
  | some global =>
      match written with
      | .error err => (.error err, s)
      | .ok _ => (.ok (), { s with manifests := s.manifests.insert key (persistedGlobal global) })

/-- `sync_global_auto_restart_watcher`. -/
def syncGlobalAutoRestartWatcher (watcher : Except String HandleId) (key : String) (s : System) :
    Except String Unit × System :=
  match s.globals[key]? with
  | none => (.ok (), s)
  | some global =>
      let service := (watchSyncBegin global.service).1
      if watchSyncKeeps service then
        match watcher with
        | .error err => (.error err, s)
        | .ok handle =>
            (.ok (), { s with
              globals := s.globals.insert key
                { global with service := watchSyncKeep handle service } })
      else (.ok (), { s with globals := s.globals.insert key { global with service } })

/-- The record stored, its manifest written, its watcher synced. -/
def storeGlobal (answers : Answers) (record : GlobalRecord) (s : System) :
    Except String Unit × System :=
  let s := { s with globals := s.globals.insert record.key record }
  match persistGlobalManifest answers.written record.key s with
  | (.error err, s) => (.error err, s)
  | (.ok _, s) => syncGlobalAutoRestartWatcher answers.watcher record.key s

/-- The unit after `start_prepared_service`. -/
def startUnit (started : Started) (prepared : PreparedService) (s : System) : System :=
  match started with
  | .ok => { s with units := s.units.insert prepared.unitName ⟨prepared, true⟩ }
  | .refused _ => s
  | .lost _ => { s with units := s.units.erase prepared.unitName }

/-- What the start and the wait for readiness come to: the text of the failure. -/
def launchFailure (answers : Answers) (name : String) : Option String :=
  match answers.started, answers.waited with
  | .ok, .ok _ => none
  | .ok, .error _ => some s!"launch global service '{name}'"
  | _, _ => some s!"start global service '{name}'"

/-- A manifest as a turn finds it. -/
def existingManifest (answers : Answers) (key : String) (s : System) : Option PersistedGlobal :=
  if answers.readable then s.manifests[key]? else none

/-- `active_existing`. -/
def activeExisting (answers : Answers) : Bool :=
  match answers.status with
  | .ok (some activeState) => activeState == "active"
  | _ => false

/-- A turn once the service is prepared: the record of a unit found active. -/
def keepGlobal (answers : Answers) (key name : String) (existing : Option PersistedGlobal)
    (prepared : PreparedService) (s : System) : Except String Unit × System :=
  storeGlobal answers
    (buildGlobalRecord call key name prepared .ready none
      (((existing.bind (·.service.lastStartedAt)).or (some call.now)))
      ((existing.map (·.service.watchPaused)).getD false) .running
      ((existing.map (·.createdAt)).getD call.now)) s

/-- The record of a unit that is started: ready, or failed. -/
def launchedRecord (answers : Answers) (key name : String) (existing : Option PersistedGlobal)
    (prepared : PreparedService) : GlobalRecord :=
  let createdAt := (existing.map (·.createdAt)).getD call.now
  match launchFailure answers name with
  | none =>
      buildGlobalRecord call key name prepared .ready none (some call.now) false .running createdAt
  | some failure =>
      buildGlobalRecord call key name prepared .failed (some failure) none false .degraded createdAt

/-- The same for a unit that is started. -/
def launchGlobal (answers : Answers) (key name : String) (existing : Option PersistedGlobal)
    (prepared : PreparedService) (s : System) : Except String Unit × System :=
  match storeGlobal answers (launchedRecord call answers key name existing prepared)
      (startUnit answers.started prepared s) with
  | (.error err, s) => (.error err, s)
  | (.ok _, s) =>
      match launchFailure answers name with
      | some err => (.error err, s)
      | none => (.ok (), s)

/-- A turn once the service is prepared. -/
def finishGlobal (answers : Answers) (key name : String) (existing : Option PersistedGlobal)
    (prepared : PreparedService) (s : System) : Except String Unit × System :=
  if activeExisting answers then keepGlobal call answers key name existing prepared s
  else launchGlobal call answers key name existing prepared s

/-- One turn of the loop of `ensure_globals`: the port of the global. -/
def ensureGlobal (name : String) (service : ServiceConfig) (s : System) :
    Except String (Option Port) × System :=
  let answers := call.answers name
  match globalKey (tools.projectHash call.projectDir) name, answers.directories with
  | .error err, _ => (.error err, s)
  | .ok _, .error err => (.error err, s)
  | .ok key, .ok _ =>
      let existing := existingManifest answers key s
      match resolveGlobalPort host name service
        ⟨key, .ok (), existing, activeExisting answers, .ok ()⟩ s.ports with
      | (.error err, ports) => (.error err, { s with ports })
      | (.ok port, ports) =>
          match prepareService tools call.files (globalArgs call key name service port) name
            service with
          | .error err => (.error err, { s with ports })
          | .ok prepared =>
              match finishGlobal call answers key name existing prepared { s with ports } with
              | (.error err, s) => (.error err, s)
              | (.ok _, s) => (.ok prepared.port, s)

/-- The loop of `ensure_globals`. -/
def ensureEach : List (String × ServiceConfig) → BTreeMap (Option Port) → System →
    Except String (BTreeMap (Option Port)) × System
  | [], ports, s => (.ok ports, s)
  | (name, service) :: rest, ports, s =>
      match ensureGlobal host tools call name service s with
      | (.error err, s) => (.error err, s)
      | (.ok port, s) => ensureEach rest (ports.insert name port) s

/-- `ensure_globals`. -/
def ensureGlobals (s : System) : Except String (BTreeMap (Option Port)) × System :=
  ensureEach host tools call call.globals.toList ∅ s

end Turn

/-! ## Runs -/

/-- `with_global_mut` on the state and the runtime of a record. -/
def withGlobal (key : String) (lifecycle : RunLifecycle)
    (f : ServiceRuntimeState → ServiceRuntimeState) (s : System) : System :=
  match s.globals[key]? with
  | none => s
  | some global =>
      { s with
        globals := s.globals.insert key
          { global with
            service := { global.service with runtime := f global.service.runtime }
            state := lifecycle } }

/-- What the outside answers about a restart: the two writes of the manifest, the
    manager, the wait for readiness with the tasks after it. -/
structure RestartAnswers where
  written : Except String Unit
  restarted : Except String Unit
  waited : Except String Unit
  rewritten : Except String Unit
  now : String

/-- The task that `restart_global_no_wait` leaves behind. -/
def finishRestart (answers : RestartAnswers) (key : String) (s : System) : System :=
  let s :=
    match answers.waited with
    | .ok _ =>
        withGlobal key .running (fun r => { r with state := .ready, lastFailure := none }) s
    | .error err =>
        withGlobal key .degraded (fun r => { r with state := .failed, lastFailure := some err }) s
  (persistGlobalManifest answers.rewritten key s).2

/-- `restart_global_no_wait`: the unit is restarted with the properties it has. -/
def restartGlobal (answers : RestartAnswers) (key : String) (s : System) : System :=
  match s.globals[key]? with
  | none => s
  | some global =>
      let s := withGlobal key .starting (fun r =>
        { r with state := .starting, lastFailure := none, lastStartedAt := some answers.now }) s
      match persistGlobalManifest answers.written key s, answers.restarted with
      | (.error _, s), _ | (.ok _, s), .error _ => s
      | (.ok _, s), .ok _ =>
          finishRestart answers key
            { s with
              units := s.units.alter global.service.launch.unitName
                (·.map (fun u => { u with active := true })) }

/-- The records of `load_globals_from_disk`, for the configurations that load. -/
def restoredGlobals (tools : Tools) (files : Files) (pathExists : String → Bool)
    (configs : String → Option ConfigFile) (manifests : BTreeMap PersistedGlobal) :
    List GlobalRecord :=
  manifests.toList.filterMap (fun entry =>
    if globalManifestIsRestorable pathExists entry.2 then
      (configs entry.2.configPath).bind (fun config =>
        (convertManifestToGlobalRecord tools files entry.2 config).toOption)
    else none)

/-- `load_globals_from_disk`, into the store of a new daemon. -/
def restoreGlobals (tools : Tools) (files : Files) (pathExists : String → Bool)
    (configs : String → Option ConfigFile) (s : System) : System :=
  { s with
    globals := (restoredGlobals tools files pathExists configs s.manifests).foldl
      (fun globals record => globals.insert record.key record) ∅ }

/-- A call of `ensure_globals`; the watcher restarts a global; the manager's view of a
    unit changes, to active or not or gone; a new daemon. -/
inductive Action where
  | ensure (call : Call)
  | restart (key : String) (answers : RestartAnswers)
  | unitChanges (unitName : String) (active : Option Bool)
  | daemonRestart (files : Files) (pathExists : String → Bool)
      (configs : String → Option ConfigFile)

def step (host : Host) (tools : Tools) (s : System) : Action → System
  | .ensure call => (ensureGlobals host tools call s).2
  | .restart key answers => restartGlobal answers key s
  | .unitChanges unitName active =>
      { s with
        units := s.units.alter unitName (·.bind (fun u => active.map ({ u with active := · }))) }
  | .daemonRestart files pathExists configs => restoreGlobals tools files pathExists configs s

/-- A machine on which nothing runs yet, with what earlier daemons left on disk. -/
def boot (ports : Ports) (manifests : BTreeMap PersistedGlobal) : System :=
  ⟨ports, ∅, manifests, ∅⟩

/-! ## Records and their units -/

/-- The port, the command and the environment a unit was last started with. -/
structure Describes (launch : ServiceLaunchPlan) (plan : PreparedService) : Prop where
  port : launch.port = plan.port
  cmd : launch.cmd = plan.cmd
  env : launch.env = plan.env

/-- Every record of a global whose unit is active describes that unit. -/
def Described (s : System) : Prop :=
  ∀ (key : String) (record : GlobalRecord), s.globals[key]? = some record →
    ∀ unit, s.units[unitNameForGlobal record.key record.name]? = some unit →
      unit.active = true → Describes record.service.launch unit.plan

/-- The ports a call returns are those that the active units were last started with. -/
def PortsDescribe (tools : Tools) (call : Call)
    (result : Except String (BTreeMap (Option Port)) × System) : Prop :=
  ∀ ports, result.1 = .ok ports → ∀ (name : String) (port : Option Port), ports[name]? = some port →
    ∀ key, globalKey (tools.projectHash call.projectDir) name = .ok key →
      ∀ unit, result.2.units[unitNameForGlobal key name]? = some unit → unit.active = true →
        port = unit.plan.port

/-- What the claim asks of one step. -/
def StepDescribes (host : Host) (tools : Tools) (s : System) (a : Action) : Prop :=
  Described (step host tools s a)
    ∧ match a with
      | .ensure call => PortsDescribe tools call (ensureGlobals host tools call s)
      | _ => True

/-! ## When a step keeps the records true -/

section Condition

variable (host : Host) (tools : Tools) (call : Call)

/-- The port that a service asks for is the one given. -/
def AsksPort (service : ServiceConfig) (existing : Option PersistedGlobal)
    (port : Option Port) : Prop :=
  match service.port with
  | some (.fixed value) => port = some value
  | some (.none _) => port = none
  | none => ∃ value, port = some value ∧ existing.bind (·.service.port) = some value

/-- A service renders to the command and the environment of a plan. -/
structure Renders (files : Files) (args : PrepareArgs) (name : String) (service : ServiceConfig)
    (plan : PreparedService) : Prop where
  cmd : renderTemplate tools args.context service.cmd = .ok plan.cmd
  env : launchEnv tools files args name service = .ok plan.env

/-- No error ends the turn before a record is stored. -/
def ReachesStore (key name : String) (service : ServiceConfig) (s : System) : Prop :=
  ∃ port ports prepared,
    resolveGlobalPort host name service
        ⟨key, .ok (), existingManifest (call.answers name) key s, activeExisting (call.answers name),
          .ok ()⟩ s.ports = (.ok port, ports)
      ∧ prepareService tools call.files (globalArgs call key name service port) name service
        = .ok prepared

/-- What a turn does to its unit. -/
inductive Treatment where
  | leaves | starts | ends
  deriving DecidableEq

def treatment (answers : Answers) : Treatment :=
  if activeExisting answers then .leaves
  else
    match answers.started with
    | .ok => .starts
    | .refused _ => .leaves
    | .lost _ => .ends

/-- The condition on a turn.  A unit that is left as it is was started with the port, the
    command and the environment of the configuration as it is now; a unit that is
    started has the name of no other global's. -/
def TurnTrue (name : String) (service : ServiceConfig) (s : System) : Prop :=
  ∀ key, globalKey (tools.projectHash call.projectDir) name = .ok key →
    ReachesStore host tools call key name service s →
    match treatment (call.answers name) with
    | .leaves =>
        ∀ unit, s.units[unitNameForGlobal key name]? = some unit →
          AsksPort service (existingManifest (call.answers name) key s) unit.plan.port
            ∧ Renders tools call.files (globalArgs call key name service unit.plan.port) name
                service unit.plan
    | .starts =>
        ∀ (key' : String) (record : GlobalRecord), s.globals[key']? = some record →
          unitNameForGlobal record.key record.name = unitNameForGlobal key name → key' = key
    | .ends => True

/-- The condition on the turns of a call, each in the state it finds. -/
def TurnsTrue : List (String × ServiceConfig) → System → Prop
  | [], _ => True
  | (name, service) :: rest, s =>
      TurnTrue host tools call name service s
        ∧ match ensureGlobal host tools call name service s with
          | (.ok _, s) => TurnsTrue rest s
          | (.error _, _) => True

end Condition

/-- The condition on the manifest of a global that is restored. -/
def ManifestTrue (tools : Tools) (files : Files) (manifest : PersistedGlobal)
    (config : ConfigFile) (units : BTreeMap ManagedUnit) : Prop :=
  ∀ service, (globalsMap config)[manifest.name]? = some service →
    ∀ unit, units[unitNameForGlobal manifest.key manifest.name]? = some unit →
      manifest.service.port = unit.plan.port
        ∧ Renders tools files (restoreGlobalArgs manifest config service) manifest.name service
            unit.plan

/-- The condition on a step. -/
def StepTrue (host : Host) (tools : Tools) (s : System) : Action → Prop
  | .ensure call => TurnsTrue host tools call call.globals.toList s
  | .daemonRestart files pathExists configs =>
      ∀ (key : String) (manifest : PersistedGlobal), s.manifests[key]? = some manifest →
        globalManifestIsRestorable pathExists manifest = true →
        ∀ config, configs manifest.configPath = some config →
          (∃ record, convertManifestToGlobalRecord tools files manifest config = .ok record) →
          ManifestTrue tools files manifest config s.units
  | .restart _ _ | .unitChanges _ _ => True

/-! ## The invariant -/

/-- What a record says of its unit. -/
def launchOf (record : GlobalRecord) : String × String × ServiceLaunchPlan :=
  (record.key, record.name, record.service.launch)

/-- What the stored records say of their units. -/
def launches (s : System) (key : String) : Option (String × String × ServiceLaunchPlan) :=
  (s.globals[key]?).map launchOf

/-- The records describe the units the manager has, active or not. -/
structure Inv (s : System) : Prop where
  keyed : ∀ key key' name launch, launches s key = some (key', name, launch) → key' = key
  described : ∀ key key' name launch, launches s key = some (key', name, launch) →
    ∀ unit, s.units[unitNameForGlobal key' name]? = some unit → Describes launch unit.plan

theorem Inv.described_active {s : System} (h : Inv s) : Described s := by
  intro key record hrecord unit hunit _
  have hlaunch : launches s key = some (record.key, record.name, record.service.launch) := by
    rw [launches, hrecord]; rfl
  exact h.described key _ _ _ hlaunch unit hunit

/-- Nothing the records say of their units was changed, and no unit was started. -/
structure Same (s s' : System) : Prop where
  launches : launches s' = launches s
  units : ∀ (name : String) (unit' : ManagedUnit), s'.units[name]? = some unit' →
    ∃ unit, s.units[name]? = some unit ∧ unit.plan = unit'.plan

theorem Same.refl (s : System) : Same s s := ⟨rfl, fun _ unit h => ⟨unit, h, rfl⟩⟩

theorem Same.trans {s s' s'' : System} (h : Same s s') (h' : Same s' s'') : Same s s'' where
  launches := h'.launches.trans h.launches
  units := by
    intro name unit'' hunit''
    obtain ⟨unit', hunit', hplan'⟩ := h'.units name unit'' hunit''
    obtain ⟨unit, hunit, hplan⟩ := h.units name unit' hunit'
    exact ⟨unit, hunit, hplan.trans hplan'⟩

theorem Same.of_units {s s' : System} (h : DevstackGlobals.launches s' = DevstackGlobals.launches s)
    (hunits : s'.units = s.units) : Same s s' :=
  ⟨h, fun _ unit hunit => ⟨unit, hunits ▸ hunit, rfl⟩⟩

theorem Inv.same {s s' : System} (h : Inv s) (hsame : Same s s') : Inv s' where
  keyed := by rw [hsame.launches]; exact h.keyed
  described := by
    intro key key' name launch hlaunch unit' hunit'
    rw [hsame.launches] at hlaunch
    obtain ⟨unit, hunit, hplan⟩ := hsame.units _ _ hunit'
    rw [← hplan]
    exact h.described key key' name launch hlaunch unit hunit

/-- Writing a record in place of one that says the same of its unit. -/
theorem launches_rewrite {s : System} {key : String} {global global' : GlobalRecord}
    (hglobal : s.globals[key]? = some global) (hsame : launchOf global' = launchOf global) :
    launches { s with globals := s.globals.insert key global' } = launches s := by
  funext key'
  rw [launches, launches, Std.ExtTreeMap.getElem?_insert]
  by_cases hkey : compare key key' = .eq
  · obtain rfl := Std.LawfulEqOrd.eq_of_compare hkey
    rw [if_pos hkey, hglobal, Option.map_some, Option.map_some, hsame]
  · rw [if_neg hkey]

theorem persistGlobalManifest_same (written : Except String Unit) (key : String) (s : System) :
    launches (persistGlobalManifest written key s).2 = launches s
      ∧ (persistGlobalManifest written key s).2.units = s.units := by
  rw [persistGlobalManifest]
  cases s.globals[key]? with
  | none => exact ⟨rfl, rfl⟩
  | some global => cases written <;> exact ⟨rfl, rfl⟩

theorem syncGlobalAutoRestartWatcher_same (watcher : Except String HandleId) (key : String)
    (s : System) :
    launches (syncGlobalAutoRestartWatcher watcher key s).2 = launches s
      ∧ (syncGlobalAutoRestartWatcher watcher key s).2.units = s.units := by
  rw [syncGlobalAutoRestartWatcher]
  cases hglobal : s.globals[key]? with
  | none => exact ⟨rfl, rfl⟩
  | some global =>
      dsimp only
      by_cases hkeeps : watchSyncKeeps (watchSyncBegin global.service).1 = true
      · rw [if_pos hkeeps]
        cases watcher with
        | error err => exact ⟨rfl, rfl⟩
        | ok handle => exact ⟨launches_rewrite hglobal (by simp [launchOf]), rfl⟩
      · rw [if_neg hkeeps]
        exact ⟨launches_rewrite hglobal (by simp [launchOf]), rfl⟩

theorem withGlobal_same (key : String) (lifecycle : RunLifecycle)
    (f : ServiceRuntimeState → ServiceRuntimeState) (s : System) :
    launches (withGlobal key lifecycle f s) = launches s
      ∧ (withGlobal key lifecycle f s).units = s.units := by
  rw [withGlobal]
  cases hglobal : s.globals[key]? with
  | none => exact ⟨rfl, rfl⟩
  | some global => exact ⟨launches_rewrite hglobal rfl, rfl⟩

/-- A stored record is there, whatever is answered afterwards. -/
theorem storeGlobal_spec (answers : Answers) (record : GlobalRecord) (s : System) :
    (∀ key, launches (storeGlobal answers record s).2 key
        = if record.key = key then some (launchOf record) else launches s key)
      ∧ (storeGlobal answers record s).2.units = s.units := by
  have hinsert : ∀ key,
      launches { s with globals := s.globals.insert record.key record } key
        = if record.key = key then some (launchOf record) else launches s key := by
    intro key
    rw [launches, launches, Std.ExtTreeMap.getElem?_insert]
    by_cases hkey : record.key = key
    · rw [if_pos hkey, if_pos (by rw [hkey]; exact Std.ReflCmp.compare_self)]; rfl
    · rw [if_neg hkey, if_neg (fun h => hkey (Std.LawfulEqOrd.eq_of_compare h))]
  rw [storeGlobal]
  obtain ⟨hlaunches, hunits⟩ := persistGlobalManifest_same answers.written record.key
    { s with globals := s.globals.insert record.key record }
  cases hpersist : persistGlobalManifest answers.written record.key
    { s with globals := s.globals.insert record.key record } with
  | mk result s₁ =>
      rw [hpersist] at hlaunches hunits
      cases result with
      | error err =>
          exact ⟨fun key => (congrFun hlaunches key).trans (hinsert key), hunits⟩
      | ok u =>
          obtain ⟨hlaunches', hunits'⟩ :=
            syncGlobalAutoRestartWatcher_same answers.watcher record.key s₁
          exact ⟨fun key => ((congrFun hlaunches' key).trans (congrFun hlaunches key)).trans
            (hinsert key), hunits'.trans hunits⟩

/-! ## One turn -/

section Turns

variable (host : Host) (tools : Tools) (call : Call)

/-- The port a turn resolves is one the service asks for. -/
theorem asksPort_resolved {name : String} {service : ServiceConfig} {answers : GlobalAnswers}
    {ports ports' : Ports} {port asked : Option Port}
    (h : resolveGlobalPort host name service answers ports = (.ok port, ports'))
    (hasks : AsksPort service answers.existing asked) : port = asked := by
  rw [AsksPort] at hasks
  simp only [resolveGlobalPort] at h
  cases hport : service.port with
  | some config =>
      rw [hport] at h hasks
      cases config with
      | fixed value =>
          -- only whether the port must be free depends on the unit
          dsimp only at h hasks
          split at h
          · exact (Except.ok.inj (congrArg Prod.fst h)).symm.trans hasks.symm
          · exact nomatch congrArg Prod.fst h
      | none value => exact (Except.ok.inj (congrArg Prod.fst h)).symm.trans hasks.symm
  | none =>
      rw [hport] at h hasks
      obtain ⟨value, rfl, hexisting⟩ := hasks
      dsimp only at h
      rw [hexisting] at h
      dsimp only at h
      split at h
      · exact (Except.ok.inj (congrArg Prod.fst h)).symm
      · exact nomatch congrArg Prod.fst h

/-- The unit of a turn that stores a record. -/
def unitAfter (answers : Answers) (prepared : PreparedService) (s : System) : System :=
  if activeExisting answers then s else startUnit answers.started prepared s

/-- What a turn that stores a record leaves. -/
structure Turned (name : String) (service : ServiceConfig) (s : System)
    (result : Except String (Option Port) × System) (key : String) (port : Option Port)
    (ports : Ports) (prepared : PreparedService) : Prop where
  key_eq : globalKey (tools.projectHash call.projectDir) name = .ok key
  resolved : resolveGlobalPort host name service
      ⟨key, .ok (), existingManifest (call.answers name) key s, activeExisting (call.answers name),
        .ok ()⟩ s.ports = (.ok port, ports)
  prepared_eq : prepareService tools call.files (globalArgs call key name service port) name
    service = .ok prepared
  launches : ∀ key', launches result.2 key'
    = if key = key' then some (key, name, prepared.launch) else launches s key'
  units : result.2.units = (unitAfter (call.answers name) prepared s).units
  returned : ∀ returned, result.1 = .ok returned → returned = prepared.port

theorem keepGlobal_spec (answers : Answers) (key name : String)
    (existing : Option PersistedGlobal) (prepared : PreparedService) (s : System) :
    (∀ key', launches (keepGlobal call answers key name existing prepared s).2 key'
        = if key = key' then some (key, name, prepared.launch) else launches s key')
      ∧ (keepGlobal call answers key name existing prepared s).2.units = s.units :=
  storeGlobal_spec answers _ s

theorem startUnit_launches (started : Started) (prepared : PreparedService) (s : System) :
    launches (startUnit started prepared s) = launches s := by
  cases started <;> rfl

theorem launchGlobal_spec (answers : Answers) (key name : String)
    (existing : Option PersistedGlobal) (prepared : PreparedService) (s : System) :
    (∀ key', launches (launchGlobal call answers key name existing prepared s).2 key'
        = if key = key' then some (key, name, prepared.launch) else launches s key')
      ∧ (launchGlobal call answers key name existing prepared s).2.units
        = (startUnit answers.started prepared s).units := by
  have hrecord : launchOf (launchedRecord call answers key name existing prepared)
      = (key, name, prepared.launch) := by
    rw [launchedRecord]
    cases launchFailure answers name <;> rfl
  have hkey : (launchedRecord call answers key name existing prepared).key = key :=
    congrArg Prod.fst hrecord
  obtain ⟨hlaunches, hunits⟩ := storeGlobal_spec answers
    (launchedRecord call answers key name existing prepared) (startUnit answers.started prepared s)
  rw [startUnit_launches, hrecord, hkey] at hlaunches
  rw [launchGlobal]
  cases hstore : storeGlobal answers (launchedRecord call answers key name existing prepared)
    (startUnit answers.started prepared s) with
  | mk result s₁ =>
      rw [hstore] at hlaunches hunits
      cases result with
      | error err => exact ⟨hlaunches, hunits⟩
      | ok u => cases launchFailure answers name <;> exact ⟨hlaunches, hunits⟩

theorem finishGlobal_spec (answers : Answers) (key name : String)
    (existing : Option PersistedGlobal) (prepared : PreparedService) (s : System) :
    (∀ key', launches (finishGlobal call answers key name existing prepared s).2 key'
        = if key = key' then some (key, name, prepared.launch) else launches s key')
      ∧ (finishGlobal call answers key name existing prepared s).2.units
        = (unitAfter answers prepared s).units := by
  rw [finishGlobal, unitAfter]
  by_cases hactive : activeExisting answers = true
  · rw [if_pos hactive, if_pos hactive]
    exact keepGlobal_spec call answers key name existing prepared s
  · rw [if_neg hactive, if_neg hactive]
    exact launchGlobal_spec call answers key name existing prepared s

theorem unitAfter_ports (answers : Answers) (prepared : PreparedService) (s : System)
    (ports : Ports) :
    (unitAfter answers prepared { s with ports }).units = (unitAfter answers prepared s).units := by
  rw [unitAfter, unitAfter]
  by_cases hactive : activeExisting answers = true
  · rw [if_pos hactive, if_pos hactive]
  · rw [if_neg hactive, if_neg hactive]
    cases answers.started <;> rfl

/-- A turn ends with an error before anything is stored, or stores a record. -/
theorem ensureGlobal_cases (name : String) (service : ServiceConfig) (s : System) :
    (Same s (ensureGlobal host tools call name service s).2
        ∧ ∃ err, (ensureGlobal host tools call name service s).1 = .error err)
      ∨ ∃ key port ports prepared, Turned host tools call name service s
          (ensureGlobal host tools call name service s) key port ports prepared := by
  rw [ensureGlobal]
  cases hkey : globalKey (tools.projectHash call.projectDir) name with
  | error err => exact .inl ⟨Same.refl s, err, rfl⟩
  | ok key =>
  cases (call.answers name).directories with
  | error err => exact .inl ⟨Same.refl s, err, rfl⟩
  | ok u =>
  dsimp only
  cases hresolve : resolveGlobalPort host name service
    ⟨key, .ok (), existingManifest (call.answers name) key s,
      activeExisting (call.answers name), .ok ()⟩ s.ports with
  | mk result ports =>
  cases result with
  | error err => exact .inl ⟨Same.of_units rfl rfl, err, rfl⟩
  | ok port =>
  dsimp only
  cases hprepare : prepareService tools call.files
    (globalArgs call key name service port) name service with
  | error err => exact .inl ⟨Same.of_units rfl rfl, err, rfl⟩
  | ok prepared =>
      refine .inr ⟨key, port, ports, prepared, ?_⟩
      dsimp only
      obtain ⟨hlaunches, hunits⟩ := finishGlobal_spec call (call.answers name) key name
        (existingManifest (call.answers name) key s) prepared { s with ports }
      rw [unitAfter_ports] at hunits
      cases hfinish : finishGlobal call (call.answers name) key name
        (existingManifest (call.answers name) key s) prepared { s with ports } with
      | mk stored s₁ =>
          rw [hfinish] at hlaunches hunits
          cases stored with
          | error err =>
              exact ⟨hkey, hresolve, hprepare, hlaunches, hunits, fun _ h => (nomatch h)⟩
          | ok u =>
              exact ⟨hkey, hresolve, hprepare, hlaunches, hunits,
                fun _ h => (Except.ok.inj h).symm⟩

/-- The units after a turn, by what it does to its own. -/
theorem unitAfter_units (answers : Answers) (prepared : PreparedService) (s : System) :
    (unitAfter answers prepared s).units
      = match treatment answers with
        | .leaves => s.units
        | .starts => s.units.insert prepared.unitName ⟨prepared, true⟩
        | .ends => s.units.erase prepared.unitName := by
  rw [unitAfter, treatment]
  by_cases hactive : activeExisting answers = true
  · rw [if_pos hactive, if_pos hactive]
  · rw [if_neg hactive, if_neg hactive]
    cases answers.started <;> rfl

variable {host tools call} {name : String} {service : ServiceConfig} {s : System}
  {result : Except String (Option Port) × System} {key : String} {port : Option Port}
  {ports : Ports} {prepared : PreparedService}

/-- The unit's name, the port, the command and the environment of a plan that is stored. -/
theorem Turned.plan (h : Turned host tools call name service s result key port ports prepared) :
    prepared.unitName = unitNameForGlobal key name ∧ prepared.port = port
      ∧ renderTemplate tools (globalArgs call key name service port).context service.cmd
        = .ok prepared.cmd
      ∧ launchEnv tools call.files (globalArgs call key name service port) name service
        = .ok prepared.env := by
  obtain ⟨envFilePath, hcarries⟩ := prepareService_ok.mp h.prepared_eq
  refine ⟨hcarries.unitName, ?_, hcarries.cmd, hcarries.launchEnv⟩
  rw [hcarries.port, globalArgs, soleArgs_port]

/-- A unit that is left as it is, under the turn's condition. -/
theorem Turned.describes_left
    (h : Turned host tools call name service s result key port ports prepared)
    {unit : ManagedUnit}
    (hasks : AsksPort service (existingManifest (call.answers name) key s) unit.plan.port)
    (hrenders : Renders tools call.files (globalArgs call key name service unit.plan.port) name
      service unit.plan) : Describes prepared.launch unit.plan := by
  obtain ⟨-, hport, hcmd, henv⟩ := h.plan
  have hsame : port = unit.plan.port := asksPort_resolved host h.resolved hasks
  rw [hsame] at hcmd henv
  constructor
  · exact hport.trans hsame
  · exact Except.ok.inj (hcmd.symm.trans hrenders.cmd)
  · exact Except.ok.inj (henv.symm.trans hrenders.env)

theorem Turned.inv (h : Turned host tools call name service s result key port ports prepared)
    (hinv : Inv s) (htrue : TurnTrue host tools call name service s) : Inv result.2 where
  keyed := by
    intro key₁ key' name' launch hlaunch
    rw [h.launches] at hlaunch
    by_cases hkey : key = key₁
    · rw [if_pos hkey] at hlaunch
      obtain ⟨rfl, -⟩ := Prod.mk.inj (Option.some.inj hlaunch)
      exact hkey
    · rw [if_neg hkey] at hlaunch
      exact hinv.keyed key₁ key' name' launch hlaunch
  described := by
    intro key₁ key' name' launch hlaunch unit hunit
    have hreaches : ReachesStore host tools call key name service s :=
      ⟨port, ports, prepared, h.resolved, h.prepared_eq⟩
    have hturn := htrue key h.key_eq hreaches
    rw [h.launches] at hlaunch
    rw [h.units, unitAfter_units] at hunit
    by_cases hkey : key = key₁
    · -- the record that was just stored
      rw [if_pos hkey] at hlaunch
      obtain ⟨rfl, hrest⟩ := Prod.mk.inj (Option.some.inj hlaunch)
      obtain ⟨rfl, rfl⟩ := Prod.mk.inj hrest
      cases htreatment : treatment (call.answers name) with
      | leaves =>
          rw [htreatment] at hturn hunit
          obtain ⟨hasks, hrenders⟩ := hturn unit hunit
          exact h.describes_left hasks hrenders
      | starts =>
          rw [htreatment, h.plan.1] at hunit
          dsimp only at hunit
          rw [Std.ExtTreeMap.getElem?_insert_self] at hunit
          obtain rfl := Option.some.inj hunit
          exact ⟨rfl, rfl, rfl⟩
      | ends =>
          rw [htreatment, h.plan.1] at hunit
          dsimp only at hunit
          rw [Std.ExtTreeMap.getElem?_erase_self] at hunit
          exact nomatch hunit
    · -- a record of another global
      rw [if_neg hkey] at hlaunch
      have hdescribed := hinv.described key₁ key' name' launch hlaunch unit
      cases htreatment : treatment (call.answers name) with
      | leaves =>
          rw [htreatment] at hunit
          exact hdescribed hunit
      | starts =>
          rw [htreatment] at hturn hunit
          dsimp only at hunit
          rw [Std.ExtTreeMap.getElem?_insert, h.plan.1] at hunit
          obtain ⟨record, hrecord, hof⟩ := Option.map_eq_some_iff.mp hlaunch
          have hne : ¬ compare (unitNameForGlobal key name) (unitNameForGlobal key' name') = .eq := by
            intro hcompare
            have hname := Std.LawfulEqOrd.eq_of_compare hcompare
            obtain ⟨rfl, hrest⟩ := Prod.mk.inj hof
            obtain ⟨rfl, -⟩ := Prod.mk.inj hrest
            exact hkey (hturn key₁ record hrecord hname.symm).symm
          rw [if_neg hne] at hunit
          exact hdescribed hunit
      | ends =>
          rw [htreatment] at hunit
          dsimp only at hunit
          rw [Std.ExtTreeMap.getElem?_erase] at hunit
          by_cases hname : compare prepared.unitName (unitNameForGlobal key' name') = .eq
          · rw [if_pos hname] at hunit
            exact nomatch hunit
          · rw [if_neg hname] at hunit
            exact hdescribed hunit

end Turns

/-! ## One call -/

/-- Keys of one project differ as the names of the globals do. -/
theorem globalKey_inj {projectHash name name' key : String}
    (h : globalKey projectHash name = .ok key) (h' : globalKey projectHash name' = .ok key) :
    name = name' := by
  rw [globalKey] at h h'
  cases hname : validateNameForPathComponent "service" name with
  | error err => rw [hname] at h; cases h
  | ok u =>
  cases hname' : validateNameForPathComponent "service" name' with
  | error err => rw [hname'] at h'; cases h'
  | ok u' =>
      rw [hname] at h
      rw [hname'] at h'
      have htext := congrArg String.toList ((Except.ok.inj h).trans (Except.ok.inj h').symm)
      simp only [toString, String.toList_append, List.append_assoc,
        List.append_cancel_left_eq] at htext
      exact String.toList_injective htext

section Calls

variable (host : Host) (tools : Tools) (call : Call)

/-- Every port of the answer is in the record of its global. -/
def PortsStored (ports : BTreeMap (Option Port)) (s : System) : Prop :=
  ∀ (name : String) (port : Option Port), ports[name]? = some port →
    ∀ key, globalKey (tools.projectHash call.projectDir) name = .ok key →
      ∃ launch, launches s key = some (key, name, launch) ∧ launch.port = port

variable {host tools call}

theorem Turned.portsStored {name : String} {service : ServiceConfig} {s s' : System}
    {returned : Option Port} {key : String} {port : Option Port} {ports' : Ports}
    {prepared : PreparedService} {ports : BTreeMap (Option Port)}
    (h : Turned host tools call name service s (.ok returned, s') key port ports' prepared)
    (hports : PortsStored tools call ports s) :
    PortsStored tools call (ports.insert name returned) s' := by
  intro name₁ port₁ hport₁ key₁ hkey₁
  have hlaunches := h.launches key₁
  rw [Std.ExtTreeMap.getElem?_insert] at hport₁
  by_cases hname : compare name name₁ = .eq
  · obtain rfl := Std.LawfulEqOrd.eq_of_compare hname
    rw [if_pos hname] at hport₁
    have hkey : key = key₁ := Except.ok.inj (h.key_eq.symm.trans hkey₁)
    rw [if_pos hkey] at hlaunches
    refine ⟨prepared.launch, ?_, ?_⟩
    · rw [hlaunches, hkey]
    · exact (h.returned returned rfl).symm.trans (Option.some.inj hport₁)
  · rw [if_neg hname] at hport₁
    have hkey : key ≠ key₁ := by
      rintro rfl
      have hsame := globalKey_inj h.key_eq hkey₁
      exact hname (by rw [hsame]; exact Std.ReflCmp.compare_self)
    rw [if_neg hkey] at hlaunches
    obtain ⟨launch, hlaunch, hport⟩ := hports name₁ port₁ hport₁ key₁ hkey₁
    exact ⟨launch, hlaunches.trans hlaunch, hport⟩

theorem ensureEach_spec (turns : List (String × ServiceConfig)) (ports : BTreeMap (Option Port))
    (s : System) (hinv : Inv s) (htrue : TurnsTrue host tools call turns s)
    (hports : PortsStored tools call ports s) :
    Inv (ensureEach host tools call turns ports s).2
      ∧ ∀ returned, (ensureEach host tools call turns ports s).1 = .ok returned →
          PortsStored tools call returned (ensureEach host tools call turns ports s).2 := by
  induction turns generalizing ports s with
  | nil =>
      refine ⟨hinv, ?_⟩
      intro returned hreturned
      rw [← Except.ok.inj hreturned]
      exact hports
  | cons turn turns ih =>
      obtain ⟨name, service⟩ := turn
      obtain ⟨hturn, hrest⟩ := htrue
      rw [ensureEach]
      rcases ensureGlobal_cases host tools call name service s with
        ⟨hsame, err, herr⟩ | ⟨key, port, ports', prepared, hturned⟩
      · cases hresult : ensureGlobal host tools call name service s with
        | mk result s' =>
            rw [hresult] at hsame herr
            obtain rfl := herr
            exact ⟨hinv.same hsame, fun _ h => (nomatch h)⟩
      · have hinv' := hturned.inv hinv hturn
        cases hresult : ensureGlobal host tools call name service s with
        | mk result s' =>
            rw [hresult] at hturned hinv' hrest
            cases result with
            | error err => exact ⟨hinv', fun _ h => (nomatch h)⟩
            | ok returned => exact ih _ s' hinv' hrest (hturned.portsStored hports)

theorem ensureGlobals_spec {s : System} (hinv : Inv s)
    (htrue : TurnsTrue host tools call call.globals.toList s) :
    Inv (ensureGlobals host tools call s).2
      ∧ PortsDescribe tools call (ensureGlobals host tools call s) := by
  have hnone : PortsStored tools call ∅ s := by
    intro name port hport
    rw [Std.ExtTreeMap.getElem?_empty] at hport
    exact nomatch hport
  obtain ⟨hinv', hports⟩ := ensureEach_spec call.globals.toList ∅ s hinv htrue hnone
  refine ⟨hinv', ?_⟩
  intro returned hreturned name port hport key hkey unit hunit _
  obtain ⟨launch, hlaunch, rfl⟩ := hports returned hreturned name port hport key hkey
  exact (hinv'.described key key name launch hlaunch unit hunit).port

end Calls

/-! ## The other steps -/

/-- Changing whether a unit is active, or dropping it. -/
theorem same_alter {s : System} {unitName : String} {f : Option ManagedUnit → Option ManagedUnit}
    (hf : ∀ unit', f (s.units[unitName]?) = some unit' →
      ∃ unit, s.units[unitName]? = some unit ∧ unit.plan = unit'.plan) :
    Same s { s with units := s.units.alter unitName f } := by
  refine ⟨rfl, ?_⟩
  intro name unit' hunit'
  dsimp only at hunit'
  rw [Std.ExtTreeMap.getElem?_alter] at hunit'
  by_cases hname : compare unitName name = .eq
  · obtain rfl := Std.LawfulEqOrd.eq_of_compare hname
    rw [if_pos hname] at hunit'
    exact hf unit' hunit'
  · rw [if_neg hname] at hunit'
    exact ⟨unit', hunit', rfl⟩

theorem same_withGlobal (key : String) (lifecycle : RunLifecycle)
    (f : ServiceRuntimeState → ServiceRuntimeState) (s : System) :
    Same s (withGlobal key lifecycle f s) := by
  obtain ⟨hlaunches, hunits⟩ := withGlobal_same key lifecycle f s
  exact .of_units hlaunches hunits

theorem same_persist (written : Except String Unit) (key : String) (s : System) :
    Same s (persistGlobalManifest written key s).2 := by
  obtain ⟨hlaunches, hunits⟩ := persistGlobalManifest_same written key s
  exact .of_units hlaunches hunits

theorem finishRestart_same (answers : RestartAnswers) (key : String) (s : System) :
    Same s (finishRestart answers key s) := by
  rw [finishRestart]
  cases answers.waited with
  | ok u => exact (same_withGlobal key _ _ s).trans (same_persist _ key _)
  | error err => exact (same_withGlobal key _ _ s).trans (same_persist _ key _)

theorem restartGlobal_same (answers : RestartAnswers) (key : String) (s : System) :
    Same s (restartGlobal answers key s) := by
  rw [restartGlobal]
  cases s.globals[key]? with
  | none => exact .refl s
  | some global =>
      dsimp only
      have hstarting := same_withGlobal key .starting (fun r =>
        { r with state := .starting, lastFailure := none, lastStartedAt := some answers.now }) s
      have hpersist := hstarting.trans (same_persist answers.written key _)
      cases hresult : persistGlobalManifest answers.written key
        (withGlobal key .starting (fun r =>
          { r with state := .starting, lastFailure := none, lastStartedAt := some answers.now })
          s) with
      | mk result s₁ =>
          rw [hresult] at hpersist
          cases result with
          | error err => exact hpersist
          | ok u =>
              cases answers.restarted with
              | error err => exact hpersist
              | ok u' =>
                  refine (hpersist.trans (same_alter ?_)).trans (finishRestart_same answers key _)
                  intro unit' hunit'
                  obtain ⟨unit, hunit, rfl⟩ := Option.map_eq_some_iff.mp hunit'
                  exact ⟨unit, hunit, rfl⟩

/-- What the store of a new daemon holds was put there by one of the records. -/
theorem mem_of_foldl_insert {records : List GlobalRecord} {globals : BTreeMap GlobalRecord}
    {key : String} {record : GlobalRecord}
    (h : (records.foldl (fun globals record => globals.insert record.key record) globals)[key]?
      = some record) : (record ∈ records ∧ record.key = key) ∨ globals[key]? = some record := by
  induction records generalizing globals with
  | nil => exact .inr h
  | cons first records ih =>
      rcases ih h with ⟨hmem, hkey⟩ | hget
      · exact .inl ⟨List.mem_cons_of_mem _ hmem, hkey⟩
      · rw [Std.ExtTreeMap.getElem?_insert] at hget
        by_cases hkey : compare first.key key = .eq
        · rw [if_pos hkey] at hget
          obtain rfl := Option.some.inj hget
          exact .inl ⟨List.mem_cons_self, Std.LawfulEqOrd.eq_of_compare hkey⟩
        · rw [if_neg hkey] at hget
          exact .inr hget

theorem inv_restoreGlobals {tools : Tools} {files : Files} {pathExists : String → Bool}
    {configs : String → Option ConfigFile} {s : System}
    (htrue : ∀ (key : String) (manifest : PersistedGlobal), s.manifests[key]? = some manifest →
      globalManifestIsRestorable pathExists manifest = true →
      ∀ config, configs manifest.configPath = some config →
        (∃ record, convertManifestToGlobalRecord tools files manifest config = .ok record) →
        ManifestTrue tools files manifest config s.units) :
    Inv (restoreGlobals tools files pathExists configs s) := by
  have hrestored : ∀ key key' name launch,
      launches (restoreGlobals tools files pathExists configs s) key = some (key', name, launch) →
        key' = key ∧ ∀ unit, s.units[unitNameForGlobal key' name]? = some unit →
          Describes launch unit.plan := by
    intro key key' name launch hlaunch
    obtain ⟨record, hrecord, hof⟩ := Option.map_eq_some_iff.mp hlaunch
    obtain ⟨rfl, hrest⟩ := Prod.mk.inj hof
    obtain ⟨rfl, rfl⟩ := Prod.mk.inj hrest
    rcases mem_of_foldl_insert hrecord with ⟨hmem, hkey⟩ | hget
    · refine ⟨hkey, ?_⟩
      intro unit hunit
      obtain ⟨⟨dir, manifest⟩, hentry, hconvert⟩ := List.mem_filterMap.mp hmem
      dsimp only at hconvert
      have hmanifest := Std.ExtTreeMap.mem_toList_iff_getElem?_eq_some.mp hentry
      by_cases hrestorable : globalManifestIsRestorable pathExists manifest = true
      · rw [if_pos hrestorable] at hconvert
        obtain ⟨config, hconfig, hok⟩ := Option.bind_eq_some_iff.mp hconvert
        have hok : convertManifestToGlobalRecord tools files manifest config = .ok record := by
          cases hresult : convertManifestToGlobalRecord tools files manifest config with
          | error err => rw [hresult] at hok; exact nomatch hok
          | ok record' => rw [hresult] at hok; exact congrArg _ (Option.some.inj hok)
        have hmanifestTrue := htrue dir manifest hmanifest hrestorable config hconfig ⟨record, hok⟩
        obtain ⟨service, prepared, hservice, hprepared, hkey', hname, hrecordOf⟩ :=
          convertManifestToGlobalRecord_ok hok
        rw [hkey', hname] at hunit
        obtain ⟨hport, hrenders⟩ := hmanifestTrue service hservice unit hunit
        obtain ⟨envFilePath, hcarries⟩ := prepareService_ok.mp hprepared
        rw [hrecordOf]
        constructor
        · rw [restoredRecord_port, hcarries.port, restoreGlobalArgs_port, hport]
        · exact Except.ok.inj (hcarries.cmd.symm.trans hrenders.cmd)
        · exact Except.ok.inj (hcarries.launchEnv.symm.trans hrenders.env)
      · rw [if_neg hrestorable] at hconvert
        exact nomatch hconvert
    · rw [Std.ExtTreeMap.getElem?_empty] at hget
      exact nomatch hget
  constructor
  · intro key key' name launch hlaunch
    exact (hrestored key key' name launch hlaunch).1
  · intro key key' name launch hlaunch unit hunit
    exact (hrestored key key' name launch hlaunch).2 unit hunit

theorem inv_step (host : Host) (tools : Tools) (s : System) (a : Action) (hinv : Inv s)
    (htrue : StepTrue host tools s a) : Inv (step host tools s a) := by
  cases a with
  | ensure call => exact (ensureGlobals_spec hinv htrue).1
  | restart key answers => exact hinv.same (restartGlobal_same answers key s)
  | unitChanges unitName active =>
      refine hinv.same (same_alter ?_)
      intro unit' hunit'
      obtain ⟨unit, hunit, hactive⟩ := Option.bind_eq_some_iff.mp hunit'
      obtain ⟨b, -, rfl⟩ := Option.map_eq_some_iff.mp hactive
      exact ⟨unit, hunit, rfl⟩
  | daemonRestart files pathExists configs => exact inv_restoreGlobals htrue

/-- **THE RECORDS OF RUNNING GLOBALS.**  In every run whose steps are true to what runs,
    every record describes its active unit, and every call returns the ports the
    active units were started with. -/
theorem globals_describe_units (host : Host) (tools : Tools) (ports : Ports)
    (manifests : BTreeMap PersistedGlobal) (as : List Action)
    (htrue : Along (step host tools) (StepTrue host tools) (boot ports manifests) as) :
    Along (step host tools) (StepDescribes host tools) (boot ports manifests) as := by
  have hstep : ∀ s a, Inv s → StepTrue host tools s a → Inv (step host tools s a) :=
    inv_step host tools
  refine along_of_guarded (step host tools) hstep ?_ as _ ?_ htrue
  · intro s a hinv htrue
    refine ⟨(inv_step host tools s a hinv htrue).described_active, ?_⟩
    cases a with
    | ensure call => exact (ensureGlobals_spec hinv htrue).2
    | restart key answers => trivial
    | unitChanges unitName active => trivial
    | daemonRestart files pathExists configs => trivial
  · have hnone : ∀ key, launches (boot ports manifests) key = none := by
      intro key
      rw [launches, boot, Std.ExtTreeMap.getElem?_empty]
      rfl
    constructor
    · intro key key' name launch hlaunch
      rw [hnone] at hlaunch
      exact nomatch hlaunch
    · intro key key' name launch hlaunch
      rw [hnone] at hlaunch
      exact nomatch hlaunch

/-! ## One global, twice -/

/-- Tools for texts without placeholders and for no env files. -/
def plainTools : Tools where
  render := fun text _ => .ok text
  dotenv := fun _ => .ok []
  encode := fun payload => payload.cmd.toUTF8.toList
  watchHash := fun _ _ _ _ _ _ => .ok "h1"
  home := none
  vars := fun _ => none
  dataDir := .ok "/data"
  projectHash := fun _ => "0a1b2c3d4e5f"

/-- A host whose ports are all free. -/
def freeHost : Host := .lone 7

def cacheService (port : Port) : ServiceConfig :=
  { ServiceConfig.ofCmd "redis" [] with port := some (.fixed port) }

/-- A call for one global with a fixed port, whose unit has the given status. -/
def cacheCall (port : Port) (status : Option String) : Call where
  globals := (∅ : BTreeMap ServiceConfig).insert "cache" (cacheService port)
  projectDir := "/app"
  configPath := "/app/devstack.toml"
  configDir := "/app"
  files := fun _ => none
  answers := fun _ => ⟨.ok (), true, .ok status, .ok, .ok (), .ok (), .ok 1⟩
  now := "t1"

/-- The condition on a call for one global is the condition on its turn. -/
theorem turnsTrue_cache {port : Port} {status : Option String} {s : System}
    (h : TurnTrue freeHost plainTools (cacheCall port status) "cache" (cacheService port) s) :
    TurnsTrue freeHost plainTools (cacheCall port status) (cacheCall port status).globals.toList
      s := by
  have hturns : (cacheCall port status).globals.toList = [("cache", cacheService port)] := rfl
  rw [hturns]
  refine ⟨h, ?_⟩
  cases ensureGlobal freeHost plainTools (cacheCall port status) "cache" (cacheService port) s with
  | mk result s' => cases result <;> trivial

/-- Started, then found active with the configuration it was started with. -/
theorem globals_describe_units_cache :
    Along (step freeHost plainTools) (StepDescribes freeHost plainTools) (boot ⟨∅, []⟩ ∅)
      [.ensure (cacheCall 6379 none), .ensure (cacheCall 6379 (some "active"))] := by
  refine globals_describe_units freeHost plainTools ⟨∅, []⟩ ∅ _
    ⟨turnsTrue_cache ?_, turnsTrue_cache ?_, trivial⟩
  · intro key hkey hreaches
    have hstarts : treatment ((cacheCall 6379 none).answers "cache") = .starts := by decide
    rw [hstarts]
    intro key' record hrecord
    rw [boot, Std.ExtTreeMap.getElem?_empty] at hrecord
    exact nomatch hrecord
  · intro key hkey hreaches
    have hleaves : treatment ((cacheCall 6379 (some "active")).answers "cache") = .leaves := by
      decide
    have hcache : globalKey (plainTools.projectHash "/app") "cache" = .ok "0a1b2c3d4e5f__cache" := by
      decide
    obtain rfl := Except.ok.inj (hkey.symm.trans hcache)
    rw [hleaves]
    intro unit hunit
    have hplan : ((step freeHost plainTools (boot ⟨∅, []⟩ ∅)
          (.ensure (cacheCall 6379 none))).units[
            unitNameForGlobal "0a1b2c3d4e5f__cache" "cache"]?).all (fun u =>
        u.plan.port = some 6379 ∧ renderTemplate plainTools (globalArgs (cacheCall 6379 none)
            "0a1b2c3d4e5f__cache" "cache" (cacheService 6379) (some 6379)).context "redis"
              = .ok u.plan.cmd
          ∧ launchEnv plainTools (fun _ => none) (globalArgs (cacheCall 6379 none)
            "0a1b2c3d4e5f__cache" "cache" (cacheService 6379) (some 6379)) "cache"
              (cacheService 6379) = .ok u.plan.env) = true := by decide +kernel
    rw [hunit] at hplan
    obtain ⟨hport, hcmd, henv⟩ := of_decide_eq_true hplan
    rw [hport]
    exact ⟨rfl, hcmd, henv⟩

/-- **A PORT THAT WAS CHANGED WHILE THE UNIT RUNS.**  The record, and the port the call
    returns, are the new configuration's; the unit listens on the old one. -/
theorem changed_port_unseen :
    ¬ Along (step freeHost plainTools) (StepDescribes freeHost plainTools) (boot ⟨∅, []⟩ ∅)
      [.ensure (cacheCall 6379 none), .ensure (cacheCall 6380 (some "active"))] := by
  rintro ⟨-, ⟨hdescribed, -⟩, -⟩
  have hrecord : ((step freeHost plainTools (step freeHost plainTools (boot ⟨∅, []⟩ ∅)
        (.ensure (cacheCall 6379 none))) (.ensure (cacheCall 6380 (some "active")))).globals[
          "0a1b2c3d4e5f__cache"]?).map
        (fun r => (unitNameForGlobal r.key r.name, r.service.launch.port))
      = some ("devstack-global-0A1B2C3D4E5F__CACHE-CACHE.service", some 6380) := by decide +kernel
  have hunit : ((step freeHost plainTools (step freeHost plainTools (boot ⟨∅, []⟩ ∅)
        (.ensure (cacheCall 6379 none))) (.ensure (cacheCall 6380 (some "active")))).units[
          "devstack-global-0A1B2C3D4E5F__CACHE-CACHE.service"]?).map
        (fun u => (u.active, u.plan.port)) = some (true, some 6379) := by decide +kernel
  obtain ⟨record, hget, hfields⟩ := Option.map_eq_some_iff.mp hrecord
  obtain ⟨unit, hgot, hplan⟩ := Option.map_eq_some_iff.mp hunit
  obtain ⟨hname, hport⟩ := Prod.mk.inj hfields
  obtain ⟨hactive, hstarted⟩ := Prod.mk.inj hplan
  have hsame := (hdescribed _ record hget unit (hname ▸ hgot) hactive).port
  rw [hport, hstarted] at hsame
  exact absurd hsame (by decide)

end DevstackGlobals
