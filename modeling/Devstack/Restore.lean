import Devstack.Daemon.World
import Devstack.Prepare

/-! # Restore — records rebuilt from manifests

    `convert_manifest_to_run_record` and `convert_manifest_to_global_record` of
    `src/persistence/daemon_state.rs`.  The launch data of a record is not in its
    manifest: it is prepared again, from a configuration and the files as they are
    now, with the ports and the base environment of the manifest. -/

namespace DevstackRestore

open DevstackModel DevstackConfig DevstackLaunch DevstackExclusivity DevstackResources
  DevstackPrepare DevstackWorld
open DevstackLogFmt (isWhitespace)

/-- `PortConfig::fixed`. -/
def fixedPort : Option PortConfig → Option Port
  | some (.fixed value) => some value
  | _ => none

/-- The path of a configuration's env file. -/
def globalEnvFilePath (config : ConfigFile) (configDir : String) : Option String :=
  config.envFile.map (joinPath configDir)

/-- `globals_map`. -/
def globalsMap (config : ConfigFile) : BTreeMap ServiceConfig := config.globals.getD ∅

/-- `Path::parent`, of a path without `.` and empty components. -/
def parentPath (path : String) : Option String :=
  match path.toList.reverse with
  | [] | ['/'] => none
  | chars =>
      match (chars.dropWhile (fun ch => ch ≠ '/')).reverse with
      | [] => some ""
      | ['/'] => some "/"
      | front => some (String.ofList front.dropLast)

section Convert

variable (tools : Tools) (files : Files)

-- ── runs ──────────────────────────────────────────────────────────────────────

/-- The loop of `global_port_map`; a manifest that does not load is no manifest. -/
def globalPorts (projectDir : String) (globalManifests : BTreeMap PersistedGlobal) :
    List (String × ServiceConfig) → BTreeMap (Option Port) →
      Except String (BTreeMap (Option Port))
  | [], ports => .ok ports
  | (name, service) :: rest, ports => do
      let key ← globalKey (tools.projectHash projectDir) name
      let port :=
        match globalManifests[key]? with
        | some manifest => manifest.service.port
        | none => fixedPort service.port
      globalPorts projectDir globalManifests rest (ports.insert name port)

/-- `global_port_map`. -/
def globalPortMap (projectDir : String) (globalManifests : BTreeMap PersistedGlobal)
    (globals : BTreeMap ServiceConfig) : Except String (BTreeMap (Option Port)) :=
  globalPorts tools projectDir globalManifests globals.toList ∅

/-- Entries for the keys that a map does not have. -/
def orInsert {α : Type} (map : BTreeMap α) (entries : List (String × α)) : BTreeMap α :=
  entries.foldl (fun map entry => map.insertIfNew entry.1 entry.2) map

/-- A manifest as it is read back: an empty directory of the configuration is the
    project's. -/
def loadedRun (manifest : PersistedRun) : PersistedRun :=
  if manifest.configDir.toList.all isWhitespace then
    { manifest with configDir := manifest.projectDir }
  else manifest

/-- What `convert_manifest_to_run_record` prepares the services with. -/
def restoreArgs (manifest : PersistedRun) (config : ConfigFile) (plan : StackPlan)
    (globals : BTreeMap (Option Port)) : PrepareArgs where
  scope := .run manifest.runId manifest.stack
  projectDir := manifest.projectDir
  configDir := manifest.configDir
  portMap := orInsert (manifest.services.map (fun _ saved => saved.port)) globals.toList
  listenPortMap := orInsert
    (manifest.services.map (fun _ saved => saved.listenPort.or saved.port)) globals.toList
  serviceSchemes := buildServiceSchemes plan (globalsMap config)
  baseEnv := manifest.env
  globalEnv := config.env
  globalEnvFile := globalEnvFilePath config manifest.configDir

/-- A service's record from what is prepared and what the manifest saved. -/
def restoredRecord (prepared : PreparedService) (saved : PersistedService) : ServiceRecord :=
  let prepared := { prepared with watchHash := saved.watchHash.getD prepared.watchHash }
  let record := intoServiceRecord prepared saved.state saved.lastFailure saved.lastStartedAt
  { record with runtime := { record.runtime with watchPaused := saved.watchPaused } }

/-- The loop over the order of the stack. -/
def restoreServices (args : PrepareArgs) (saved : BTreeMap PersistedService)
    (services : BTreeMap ServiceConfig) :
    List String → BTreeMap ServiceRecord → Except String (BTreeMap ServiceRecord)
  | [], records => .ok records
  | name :: order, records =>
      match saved[name]?, services[name]? with
      | some savedService, some service => do
          let prepared ← prepareService tools files args name service
          restoreServices args saved services order
            (records.insert name (restoredRecord prepared savedService))
      | _, _ => restoreServices args saved services order records

/-- `convert_manifest_to_run_record`. -/
def convertManifestToRunRecord (globalManifests : BTreeMap PersistedGlobal)
    (manifest : PersistedRun) (config : ConfigFile) : Except String RunRecord := do
  let plan ← stackPlan config manifest.stack
  let globals ← globalPortMap tools manifest.projectDir globalManifests (globalsMap config)
  let services ← restoreServices tools files (restoreArgs manifest config plan globals)
    manifest.services plan.services plan.order ∅
  .ok
    { runId := manifest.runId
      stack := manifest.stack
      projectDir := manifest.projectDir
      configDir := manifest.configDir
      baseEnv := manifest.env
      services
      state := manifest.state
      createdAt := manifest.createdAt
      stoppedAt := manifest.stoppedAt }

-- ── globals ───────────────────────────────────────────────────────────────────

/-- The port maps, the schemes and the base environment of a global on its own. -/
def soleArgs (scope : InstanceScope) (projectDir configDir name : String)
    (service : ServiceConfig) (port listenPort : Option Port) : PrepareArgs where
  scope := scope
  projectDir := projectDir
  configDir := configDir
  portMap := Std.ExtTreeMap.ofList [(name, port)]
  listenPortMap := Std.ExtTreeMap.ofList [(name, listenPort)]
  serviceSchemes := Std.ExtTreeMap.ofList [(name, schemeOf service)]
  baseEnv := buildBaseEnv scope projectDir (Std.ExtTreeMap.ofList [(name, port)])
    (Std.ExtTreeMap.ofList [(name, listenPort)]) (Std.ExtTreeMap.ofList [(name, schemeOf service)])
  globalEnv := ∅
  globalEnvFile := none

/-- What `convert_manifest_to_global_record` prepares the global with. -/
def restoreGlobalArgs (manifest : PersistedGlobal) (config : ConfigFile)
    (service : ServiceConfig) : PrepareArgs :=
  let configDir := (parentPath manifest.configPath).getD manifest.projectDir
  { soleArgs (.global manifest.key manifest.projectDir manifest.name) manifest.projectDir configDir
      manifest.name service manifest.service.port
      (manifest.service.listenPort.or manifest.service.port) with
    globalEnv := config.env
    globalEnvFile := globalEnvFilePath config configDir }

/-- `convert_manifest_to_global_record`. -/
def convertManifestToGlobalRecord (manifest : PersistedGlobal) (config : ConfigFile) :
    Except String GlobalRecord :=
  match (globalsMap config)[manifest.name]? with
  | none => .error s!"global {manifest.name} missing from {manifest.configPath}"
  | some service => do
      let prepared ← prepareService tools files (restoreGlobalArgs manifest config service)
        manifest.name service
      .ok
        { key := manifest.key
          name := manifest.name
          projectDir := manifest.projectDir
          configPath := manifest.configPath
          service := restoredRecord prepared manifest.service
          state := manifest.state
          createdAt := manifest.createdAt
          stoppedAt := manifest.stoppedAt }

end Convert

@[simp] theorem soleArgs_port (scope : InstanceScope) (projectDir configDir name : String)
    (service : ServiceConfig) (port listenPort : Option Port) :
    (soleArgs scope projectDir configDir name service port listenPort).port name = port := by
  simp [soleArgs, PrepareArgs.port]

@[simp] theorem restoreGlobalArgs_port (manifest : PersistedGlobal) (config : ConfigFile)
    (service : ServiceConfig) :
    (restoreGlobalArgs manifest config service).port manifest.name = manifest.service.port := by
  simp [restoreGlobalArgs, soleArgs, PrepareArgs.port]

@[simp] theorem restoredRecord_port (prepared : PreparedService) (saved : PersistedService) :
    (restoredRecord prepared saved).launch.port = prepared.port := rfl

@[simp] theorem restoredRecord_cmd (prepared : PreparedService) (saved : PersistedService) :
    (restoredRecord prepared saved).launch.cmd = prepared.cmd := rfl

@[simp] theorem restoredRecord_env (prepared : PreparedService) (saved : PersistedService) :
    (restoredRecord prepared saved).launch.env = prepared.env := rfl

/-! ## What a restored run has -/

/-- A record without handles, as a new daemon has it. -/
def bare (record : ServiceRecord) : ServiceRecord := { record with handles := ⟨none, none, none⟩ }

/-- What is prepared again is the record, if it has its plan and specification: the hash,
    and all of the runtime, are in the manifest. -/
theorem restoredRecord_eq {prepared : PreparedService} {record : ServiceRecord}
    (hspec : prepared.spec = record.spec)
    (hlaunch : { prepared.launch with watchHash := record.launch.watchHash } = record.launch) :
    restoredRecord prepared (persistedService record) = bare record := by
  obtain ⟨spec, launch, ⟨state, lastFailure, lastStartedAt, watchPaused⟩, handles⟩ := record
  obtain rfl := hspec
  dsimp only at hlaunch
  simp only [restoredRecord, persistedService, intoServiceRecord, bare, Option.getD_some,
    ServiceRecord.new]
  rw [← hlaunch]
  rfl

section Restored

variable {tools : Tools} {files : Files}

theorem restoreServices_spec {args : PrepareArgs} {saved : BTreeMap PersistedService}
    {services : BTreeMap ServiceConfig} {f : String → Option ServiceRecord} {order : List String}
    (h : ∀ name ∈ order, ∀ savedService, saved[name]? = some savedService →
      ∀ service, services[name]? = some service →
        ∃ prepared, prepareService tools files args name service = .ok prepared
          ∧ f name = some (restoredRecord prepared savedService))
    (records : BTreeMap ServiceRecord) :
    ∃ restored, restoreServices tools files args saved services order records = .ok restored
      ∧ ∀ name, restored[name]?
        = if name ∈ order ∧ name ∈ saved ∧ name ∈ services then f name else records[name]? := by
  induction order generalizing records with
  | nil => exact ⟨records, rfl, fun name => by rw [if_neg (fun h => (nomatch h.1))]⟩
  | cons first order ih =>
      have hrest := fun name (hname : name ∈ order) => h name (List.mem_cons_of_mem first hname)
      rw [restoreServices]
      cases hsaved : saved[first]? with
      | none =>
          obtain ⟨restored, hok, hget⟩ := ih hrest records
          refine ⟨restored, hok, fun name => (hget name).trans ?_⟩
          have hnot : first ∉ saved := by
            rw [Std.ExtTreeMap.mem_iff_isSome_getElem?, hsaved]
            exact Bool.false_ne_true
          grind
      | some savedService =>
          cases hservice : services[first]? with
          | none =>
              obtain ⟨restored, hok, hget⟩ := ih hrest records
              refine ⟨restored, hok, fun name => (hget name).trans ?_⟩
              have hnot : first ∉ services := by
                rw [Std.ExtTreeMap.mem_iff_isSome_getElem?, hservice]
                exact Bool.false_ne_true
              grind
          | some service =>
              obtain ⟨prepared, hprepared, hf⟩ :=
                h first List.mem_cons_self savedService hsaved service hservice
              obtain ⟨restored, hok, hget⟩ :=
                ih hrest (records.insert first (restoredRecord prepared savedService))
              refine ⟨restored, bind_ok.mpr ⟨prepared, hprepared, hok⟩, fun name => ?_⟩
              rw [hget name, Std.ExtTreeMap.getElem?_insert]
              have hinSaved : first ∈ saved := by
                rw [Std.ExtTreeMap.mem_iff_isSome_getElem?, hsaved]; rfl
              have hinServices : first ∈ services := by
                rw [Std.ExtTreeMap.mem_iff_isSome_getElem?, hservice]; rfl
              by_cases hname : compare first name = .eq
              · obtain rfl := Std.LawfulEqOrd.eq_of_compare hname
                have hright : (if first ∈ first :: order ∧ first ∈ saved ∧ first ∈ services then
                    f first else records[first]?) = f first :=
                  if_pos ⟨List.mem_cons_self, hinSaved, hinServices⟩
                rw [hright, if_pos hname, hf]
                exact ite_self _
              · have hne : name ≠ first := fun h => hname (by rw [h]; exact Std.ReflCmp.compare_self)
                rw [if_neg hname]
                grind

/-- Every record that the loop stores is prepared from the service of its name. -/
theorem restoreServices_mem {args : PrepareArgs} {saved : BTreeMap PersistedService}
    {services : BTreeMap ServiceConfig} {order : List String} {records restored : BTreeMap ServiceRecord}
    (h : restoreServices tools files args saved services order records = .ok restored)
    {name : String} {record : ServiceRecord} (hrecord : restored[name]? = some record) :
    records[name]? = some record
      ∨ ∃ service savedService prepared, services[name]? = some service
        ∧ prepareService tools files args name service = .ok prepared
        ∧ record = restoredRecord prepared savedService := by
  induction order generalizing records with
  | nil =>
      obtain rfl := Except.ok.inj h
      exact Or.inl hrecord
  | cons first order ih =>
      rw [restoreServices] at h
      cases hsaved : saved[first]? with
      | none =>
          rw [hsaved] at h
          exact ih h
      | some savedService =>
          cases hservice : services[first]? with
          | none =>
              rw [hsaved, hservice] at h
              exact ih h
          | some service =>
              rw [hsaved, hservice] at h
              obtain ⟨prepared, hprepared, hrest⟩ := bind_ok.mp h
              obtain hbefore | hfrom := ih hrest
              · rw [Std.ExtTreeMap.getElem?_insert] at hbefore
                split at hbefore
                · next heq =>
                    obtain rfl := Std.LawfulEqOrd.eq_of_compare heq
                    exact Or.inr ⟨service, savedService, prepared, hservice, hprepared,
                      (Option.some.inj hbefore).symm⟩
                · exact Or.inl hbefore
              · exact Or.inr hfrom

/-- What the record of a restored run is made of. -/
theorem convertManifestToRunRecord_ok {globalManifests : BTreeMap PersistedGlobal}
    {manifest : PersistedRun} {config : ConfigFile} {run : RunRecord}
    (h : convertManifestToRunRecord tools files globalManifests manifest config = .ok run) :
    run.runId = manifest.runId
      ∧ ∃ plan globals, stackPlan config manifest.stack = .ok plan
        ∧ globalPortMap tools manifest.projectDir globalManifests (globalsMap config) = .ok globals
        ∧ ∀ (name : String) (record : ServiceRecord), run.services[name]? = some record →
          ∃ service savedService prepared, plan.services[name]? = some service
            ∧ prepareService tools files (restoreArgs manifest config plan globals) name service
              = .ok prepared
            ∧ record = restoredRecord prepared savedService := by
  obtain ⟨plan, hplan, h⟩ := bind_ok.mp h
  obtain ⟨globals, hglobals, h⟩ := bind_ok.mp h
  obtain ⟨services, hservices, h⟩ := bind_ok.mp h
  obtain rfl := Except.ok.inj h
  refine ⟨rfl, plan, globals, hplan, hglobals, fun name record hrecord => ?_⟩
  obtain hempty | hfrom := restoreServices_mem hservices hrecord
  · simp at hempty
  · exact hfrom

/-- A run comes back as it was, with bare records, if every service is in the snapshot's
    stack and is prepared again as its record has it. -/
theorem convertManifestToRunRecord_restores {globalManifests : BTreeMap PersistedGlobal}
    {manifest : PersistedRun} {run : RunRecord} {config : ConfigFile} {plan : StackPlan}
    {globals : BTreeMap (Option Port)}
    (hsaved : manifest.services = run.services.map (fun _ record => persistedService record))
    (hplan : stackPlan config manifest.stack = .ok plan)
    (hglobals : globalPortMap tools manifest.projectDir globalManifests (globalsMap config)
      = .ok globals)
    (hservices : ∀ name record, run.services[name]? = some record →
      ∃ service prepared, plan.services[name]? = some service
        ∧ prepareService tools files (restoreArgs manifest config plan globals) name service
          = .ok prepared
        ∧ prepared.spec = record.spec
        ∧ { prepared.launch with watchHash := record.launch.watchHash } = record.launch) :
    ∃ run', convertManifestToRunRecord tools files globalManifests manifest config = .ok run'
      ∧ ∀ name : String, run'.services[name]? = (run.services[name]?).map bare := by
  have hget : ∀ name : String, manifest.services[name]?
      = (run.services[name]?).map persistedService := by
    intro name
    rw [hsaved, Std.ExtTreeMap.getElem?_map]
  have hall : ∀ name ∈ plan.order, ∀ savedService, manifest.services[name]? = some savedService →
      ∀ service, plan.services[name]? = some service →
        ∃ prepared, prepareService tools files (restoreArgs manifest config plan globals) name
            service = .ok prepared
          ∧ (run.services[name]?).map bare = some (restoredRecord prepared savedService) := by
    intro name _ savedService hsavedService service hservice
    rw [hget] at hsavedService
    obtain ⟨record, hrecord, rfl⟩ := Option.map_eq_some_iff.mp hsavedService
    obtain ⟨service', prepared, hservice', hprepared, hspec, hlaunch⟩ :=
      hservices name record hrecord
    obtain rfl := Option.some.inj (hservice.symm.trans hservice')
    refine ⟨prepared, hprepared, ?_⟩
    rw [hrecord, restoredRecord_eq hspec hlaunch]
    rfl
  obtain ⟨restored, hrestored, hrecords⟩ := restoreServices_spec hall ∅
  refine ⟨_, bind_ok.mpr ⟨plan, hplan, bind_ok.mpr ⟨globals, hglobals,
    bind_ok.mpr ⟨restored, hrestored, rfl⟩⟩⟩, ?_⟩
  intro name
  rw [hrecords name]
  cases hrecord : run.services[name]? with
  | none =>
      rw [Std.ExtTreeMap.getElem?_empty]
      exact ite_self _
  | some record =>
      obtain ⟨service, -, hservice, -⟩ := hservices name record hrecord
      have hinServices : name ∈ plan.services := by
        rw [Std.ExtTreeMap.mem_iff_isSome_getElem?, hservice]; rfl
      have hinSaved : name ∈ manifest.services := by
        rw [Std.ExtTreeMap.mem_iff_isSome_getElem?, hget, hrecord]; rfl
      rw [if_pos ⟨stackPlan_complete hplan hinServices, hinSaved, hinServices⟩]

end Restored

/-- What the record of a restored global is made of. -/
theorem convertManifestToGlobalRecord_ok {tools : Tools} {files : Files}
    {manifest : PersistedGlobal} {config : ConfigFile} {record : GlobalRecord}
    (h : convertManifestToGlobalRecord tools files manifest config = .ok record) :
    ∃ service prepared, (globalsMap config)[manifest.name]? = some service
      ∧ prepareService tools files (restoreGlobalArgs manifest config service) manifest.name service
        = .ok prepared
      ∧ record.key = manifest.key ∧ record.name = manifest.name
      ∧ record.service = restoredRecord prepared manifest.service := by
  rw [convertManifestToGlobalRecord] at h
  cases hservice : (globalsMap config)[manifest.name]? with
  | none => rw [hservice] at h; exact nomatch h
  | some service =>
      rw [hservice] at h
      dsimp only at h
      obtain ⟨prepared, hprepared, hrecord⟩ := bind_ok.mp h
      obtain rfl := Except.ok.inj hrecord
      exact ⟨service, prepared, rfl, hprepared, rfl, rfl, rfl⟩

end DevstackRestore
