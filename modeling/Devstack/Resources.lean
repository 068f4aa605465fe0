import Devstack.Launch
import Devstack.Ports

/-! # Resources — what `up` and `refresh_run` build before they launch

    `initialize_new_run_layout`, `build_new_launch_resources`, `create_run_record`
    and `build_refresh_launch_resources` of `src/app/commands/runs.rs`, with the
    port functions they call: `resolve_ports_for_refresh` of `launch/prepare.rs`,
    `sync_port_reservations_from_disk` of `app/runtime.rs`, `ensure_globals`.

    An error carries the stage it comes from, so that what an error leaves behind
    can be said stage by stage. -/

namespace DevstackResources

open DevstackModel DevstackStores DevstackConfig DevstackLaunch DevstackPorts DevstackReservation

/-! ## What a build works on -/

/-- The step of a build that returned an error. -/
inductive Stage where
  | lookup | remove | layout | sync | ports | globals | listen (service : String) | baseEnv
  | create
  deriving DecidableEq, Repr

structure Failure where
  stage : Stage
  message : String
  deriving DecidableEq, Repr

/-- The registry, the runs, and the configuration snapshots of their directories. -/
structure Store where
  ports : Ports
  runs : BTreeMap RunRecord
  snapshots : BTreeMap String

/-- What the outside answers about one global: whether its directories could be
    made, its manifest, whether its unit is active, and whether preparing,
    starting and storing it succeeded. -/
structure GlobalAnswers where
  key : String
  directories : Except String Unit
  existing : Option PersistedGlobal
  active : Bool
  ensured : Except String Unit

/-- What the outside answers during a build: the host, the manifests on disk in
    the order of their directory, the new run's directories, the configuration
    file, the write of its snapshot, the globals. -/
structure Outside where
  host : Host
  pathExists : String → Bool
  manifests : List PersistedRun
  globalManifests : List PersistedGlobal
  directories : Except String Unit
  config : Except String String
  written : Except String Unit
  globals : String → GlobalAnswers
  now : String

/-- What is to be built: the stack and the globals of the configuration. -/
structure Build where
  runId : String
  plan : StackPlan
  globals : BTreeMap ServiceConfig
  projectDir : String
  configDir : String

/-- `LaunchResources`, the parts that are built here. -/
structure LaunchResources where
  portMap : BTreeMap (Option Port)
  listenPortMap : BTreeMap (Option Port)
  serviceSchemes : BTreeMap String
  baseEnv : BTreeMap String

-- ── config/model.rs ───────────────────────────────────────────────────────────

/-- `ServiceConfig::scheme`. -/
def schemeOf (service : ServiceConfig) : String := service.scheme.getD "http"

/-- `http_capture_by_default`. -/
def httpCaptureByDefault (service : ServiceConfig) : Bool :=
  decide (service.scheme = some "http") || (service.readiness.bind (·.http)).isSome

/-- `capture_api_enabled`, for a service of a stack. -/
def captureApiEnabled (service : ServiceConfig) (hasPort : Bool) (scheme : String) : Bool :=
  if !service.captureApi.getD true || !hasPort || decide (scheme ≠ "http") then false
  else decide (service.captureApi = some true) || httpCaptureByDefault service

-- ── app/runtime.rs ────────────────────────────────────────────────────────────

section Ports

variable (host : Host)

/-- A loop of reservations that ends with the first that is refused. -/
def reserveEach : List (Port × Owner) → Ports → Except String Unit × Ports
  | [], s => (.ok (), s)
  | (port, owner) :: rest, s =>
      match reservePort host port owner s with
      | (.ok _, s) => reserveEach rest s
      | (.error err, s) => (.error err, s)

/-- The reservations `sync_port_reservations_from_disk` makes for one service. -/
def recordedService (runId service : String) (record : PersistedService) :
    List (Port × Owner) :=
  record.port.toList.map (fun port => (port, .service runId service))
    ++ match record.listenPort with
      | some listenPort =>
          if record.captureApi = true ∧ some listenPort ≠ record.port then
            [(listenPort, .captureBackend runId service)]
          else []
      | none => []

/-- Those it makes for the runs' manifests. -/
def recordedRuns (pathExists : String → Bool) (manifests : List PersistedRun) :
    List (Port × Owner) :=
  (manifests.filter (runManifestIsRestorable pathExists)).flatMap (fun manifest =>
    manifest.services.toList.flatMap (fun kv => recordedService manifest.runId kv.1 kv.2))

/-- Those it makes for the globals' manifests. -/
def recordedGlobals (pathExists : String → Bool) (manifests : List PersistedGlobal) :
    List (Port × Owner) :=
  (manifests.filter (globalManifestIsRestorable pathExists)).flatMap (fun manifest =>
    manifest.service.port.toList.map (fun port => (port, .global manifest.key manifest.name)))

/-- `sync_port_reservations_from_disk`. -/
def syncPortReservationsFromDisk (outside : Outside) (s : Ports) : Except String Unit × Ports :=
  reserveEach outside.host
    (recordedRuns outside.pathExists outside.manifests
      ++ recordedGlobals outside.pathExists outside.globalManifests) s

/-- `release_service_port`. -/
def releaseServicePort (runId service : String) (port : Option Port) (s : Ports) :
    Except String Unit × Ports :=
  match port with
  | some port => releasePort host port (.service runId service) s
  | none => (.ok (), s)

/-- `release_service_capture_backend_port`. -/
def releaseServiceCaptureBackendPort (runId service : String) (port publicPort : Option Port)
    (s : Ports) : Except String Unit × Ports :=
  match port with
  | some port =>
      if some port ≠ publicPort then releasePort host port (.captureBackend runId service) s
      else (.ok (), s)
  | none => (.ok (), s)

-- ── commands/ensure_globals.rs ────────────────────────────────────────────────

/-- `resolve_global_port`. -/
def resolveGlobalPort (name : String) (service : ServiceConfig) (answers : GlobalAnswers)
    (s : Ports) : Except String (Option Port) × Ports :=
  let owner := Owner.global answers.key name
  let reusePort := answers.existing.bind (·.service.port)
  match service.port with
  | some (.fixed value) =>
      let reserved :=
        if answers.active = true ∧ reusePort = some value then reservePort host value owner s
        else reserveAvailablePort host value owner s
      match reserved with
      | (.ok _, s) => (.ok (some value), s)
      | (.error err, s) => (.error err, s)
  | some (.none _) => (.ok none, s)
  | none =>
      match reusePort with
      | some port =>
          match reservePort host port owner s with
          | (.ok _, s) => (.ok (some port), s)
          | (.error err, s) => (.error err, s)
      | none =>
          match allocatePorts host (Std.ExtTreeMap.ofList [(name, service)]) (fun _ => owner) s with
          | (.ok allocated, s) => (.ok ((allocated[name]?).getD none), s)
          | (.error err, s) => (.error err, s)

/-- The loop of `ensure_globals`. -/
def ensureEachGlobal (answers : String → GlobalAnswers) :
    List (String × ServiceConfig) → BTreeMap (Option Port) → Ports →
      Except String (BTreeMap (Option Port)) × Ports
  | [], ports, s => (.ok ports, s)
  | (name, service) :: rest, ports, s =>
      match (answers name).directories with
      | .error err => (.error err, s)
      | .ok _ =>
          match resolveGlobalPort host name service (answers name) s with
          | (.error err, s) => (.error err, s)
          | (.ok port, s) =>
              match (answers name).ensured with
              | .error err => (.error err, s)
              | .ok _ => ensureEachGlobal answers rest (ports.insert name port) s

/-- `ensure_globals`: its ports. -/
def ensureGlobals (answers : String → GlobalAnswers) (globals : BTreeMap ServiceConfig)
    (s : Ports) : Except String (BTreeMap (Option Port)) × Ports :=
  ensureEachGlobal host answers globals.toList ∅ s

-- ── launch/prepare.rs ─────────────────────────────────────────────────────────

/-- The port of one service in `resolve_ports_for_refresh`; `none` when it is left
    to `allocate_ports`. -/
def resolvePort (runId : String) (existing : BTreeMap ExistingServiceSnapshot)
    (reusePorts : Bool) (name : String) (service : ServiceConfig) (s : Ports) :
    Except String (Option (Option Port)) × Ports :=
  let owner := Owner.service runId name
  let existingPort := (existing[name]?).bind (·.port)
  match service.port with
  | some (.fixed value) =>
      let reserved :=
        if existingPort = some value then reservePort host value owner s
        else reserveAvailablePort host value owner s
      match reserved with
      | (.ok _, s) => (.ok (some (some value)), s)
      | (.error err, s) => (.error err, s)
  | some (.none _) => (.ok (some none), s)
  | none =>
      match reusePorts, existingPort with
      | true, some port =>
          match reservePort host port owner s with
          | (.ok _, s) => (.ok (some (some port)), s)
          | (.error err, s) => (.error err, s)
      | _, _ => (.ok none, s)

/-- Its loop: the ports so far, and the services that need one. -/
def resolveEach (runId : String) (existing : BTreeMap ExistingServiceSnapshot)
    (reusePorts : Bool) :
    List (String × ServiceConfig) → BTreeMap (Option Port) → BTreeMap ServiceConfig → Ports →
      Except String (BTreeMap (Option Port) × BTreeMap ServiceConfig) × Ports
  | [], portMap, needsAlloc, s => (.ok (portMap, needsAlloc), s)
  | (name, service) :: rest, portMap, needsAlloc, s =>
      match resolvePort host runId existing reusePorts name service s with
      | (.error err, s) => (.error err, s)
      | (.ok (some port), s) =>
          resolveEach runId existing reusePorts rest (portMap.insert name port) needsAlloc s
      | (.ok none, s) =>
          resolveEach runId existing reusePorts rest (portMap.insert name none)
            (needsAlloc.insert name service) s

/-- `resolve_ports_for_refresh`. -/
def resolvePortsForRefresh (runId : String) (services : BTreeMap ServiceConfig)
    (existing : BTreeMap ExistingServiceSnapshot) (reusePorts : Bool) (s : Ports) :
    Except String (BTreeMap (Option Port)) × Ports :=
  match resolveEach host runId existing reusePorts services.toList ∅ ∅ s with
  | (.error err, s) => (.error err, s)
  | (.ok (portMap, needsAlloc), s) =>
      if needsAlloc.isEmpty then (.ok portMap, s)
      else
        match allocatePorts host needsAlloc (Owner.service runId) s with
        | (.error err, s) => (.error err, s)
        | (.ok allocated, s) =>
            (.ok (portMap ∪ allocated), s)

-- ── commands/runs.rs ──────────────────────────────────────────────────────────

/-- The listen port of one service in `resolve_listen_ports_for_launch`. -/
def resolveListenPort (runId : String) (portMap : BTreeMap (Option Port))
    (existing : BTreeMap ExistingServiceSnapshot) (reusePorts : Bool) (name : String)
    (service : ServiceConfig) (s : Ports) : Except String (Option Port) × Ports :=
  let publicPort := (portMap[name]?).getD none
  let owner := Owner.captureBackend runId name
  let existingPort := (existing[name]?).bind (·.listenPort)
  if captureApiEnabled service publicPort.isSome (schemeOf service) then
    match publicPort with
    | none => (.ok none, s)
    | some _ =>
        match reusePorts, existingPort with
        | true, some port =>
            if some port ≠ publicPort then
              match reservePort host port owner s with
              | (.ok _, s) => (.ok (some port), s)
              | (.error err, s) => (.error err, s)
            else
              match reserveEphemeralPort host owner s with
              | (.ok port, s) => (.ok (some port), s)
              | (.error err, s) => (.error err, s)
        | _, _ =>
            match reserveEphemeralPort host owner s with
            | (.ok port, s) => (.ok (some port), s)
            | (.error err, s) => (.error err, s)
  else (.ok publicPort, s)

/-- `resolve_listen_ports_for_launch`; an error comes with its service. -/
def resolveListenPorts (runId : String) (portMap : BTreeMap (Option Port))
    (existing : BTreeMap ExistingServiceSnapshot) (reusePorts : Bool) :
    List (String × ServiceConfig) → BTreeMap (Option Port) → Ports →
      Except (String × String) (BTreeMap (Option Port)) × Ports
  | [], listenPortMap, s => (.ok listenPortMap, s)
  | (name, service) :: rest, listenPortMap, s =>
      match resolveListenPort host runId portMap existing reusePorts name service s with
      | (.error err, s) => (.error (name, err), s)
      | (.ok listenPort, s) =>
          resolveListenPorts runId portMap existing reusePorts rest
            (listenPortMap.insert name listenPort) s

/-- The three releases `release_unpreserved_stack_ports` may make for a service. -/
def unpreservedPorts (runId : String) (portMap listenPortMap : BTreeMap (Option Port))
    (preserved : BTreeMap ExistingServiceSnapshot) (name : String) : List (Port × Owner) :=
  let port := (portMap[name]?).getD none
  let listenPort := (listenPortMap[name]?).getD none
  let preservedPort := (preserved[name]?).bind (·.port)
  let preservedListenPort := (preserved[name]?).bind (·.listenPort)
  let backend := Owner.captureBackend runId name
  (if preservedListenPort ≠ preservedPort ∧ preservedListenPort ≠ listenPort then
      preservedListenPort.toList.map (fun p => (p, backend))
    else [])
  ++ (if listenPort ≠ port ∧ preservedListenPort ≠ listenPort then
      listenPort.toList.map (fun p => (p, backend))
    else [])
  ++ if preservedPort ≠ port then port.toList.map (fun p => (p, Owner.service runId name)) else []

/-- `release_unpreserved_stack_ports`; its errors are only printed. -/
def releaseUnpreservedStackPorts (runId : String) (plan : StackPlan)
    (portMap listenPortMap : BTreeMap (Option Port))
    (preserved : BTreeMap ExistingServiceSnapshot) (s : Ports) : Ports :=
  (plan.services.keys.flatMap (unpreservedPorts runId portMap listenPortMap preserved)).foldl
    (fun s x => (releasePort host x.1 x.2 s).2) s

/-- The releases of `remove_services_missing_from_stack`. -/
def releaseRemoved (runId : String) (existing : BTreeMap ExistingServiceSnapshot) :
    List String → Ports → Except String Unit × Ports
  | [], s => (.ok (), s)
  | name :: rest, s =>
      let publicPort := (existing[name]?).bind (·.port)
      let listenPort := (existing[name]?).bind (·.listenPort)
      match releaseServiceCaptureBackendPort host runId name listenPort publicPort s with
      | (.error err, s) => (.error err, s)
      | (.ok _, s) =>
          match releaseServicePort host runId name publicPort s with
          | (.error err, s) => (.error err, s)
          | (.ok _, s) => releaseRemoved runId existing rest s

end Ports

-- ── launch/context.rs ─────────────────────────────────────────────────────────

/-- `readiness_url`. -/
def readinessUrl (scheme : String) (port : Port) : String :=
  if scheme = "https" then s!"https://localhost:{port}" else s!"http://localhost:{port}"

/-- `build_base_env`, for a run. -/
def buildBaseEnv (build : Build) (portMap listenPortMap : BTreeMap (Option Port))
    (schemes : BTreeMap String) : Except String (BTreeMap String) :=
  let env : BTreeMap String :=
    ((Std.ExtTreeMap.empty.insert "DEV_RUN_ID" build.runId).insert "DEV_STACK"
      build.plan.name).insert "DEV_PROJECT_DIR" build.projectDir
  let env := portMap.toList.foldl (fun env kv =>
    match kv.2 with
    | some port =>
        let key := sanitizeEnvKey kv.1
        (env.insert s!"DEV_PORT_{key}" s!"{port}").insert s!"DEV_URL_{key}"
          (readinessUrl ((schemes[kv.1]?).getD "http") port)
    | none => env) env
  .ok (listenPortMap.toList.foldl (fun env kv =>
    match kv.2 with
    | some listenPort => env.insert s!"DEV_LISTEN_PORT_{sanitizeEnvKey kv.1}" s!"{listenPort}"
    | none => env) env)

-- ── commands/runs.rs, the builds ──────────────────────────────────────────────

/-- `build_service_schemes`. -/
def buildServiceSchemes (plan : StackPlan) (globals : BTreeMap ServiceConfig) : BTreeMap String :=
  plan.services.map (fun _ service => schemeOf service)
    ∪ globals.map (fun _ service => schemeOf service)

section Builds

variable (outside : Outside) (build : Build)

/-- What `build_new_launch_resources` and `build_refresh_launch_resources` do once
    the public ports are there; a new run has no existing services.  The later
    operand of a union wins, so `entry(name).or_insert(port)` for the globals is
    a union with the services' ports last. -/
def finishLaunchResources (existing : BTreeMap ExistingServiceSnapshot) (reusePorts : Bool)
    (portMap : BTreeMap (Option Port)) (s : Ports) : Except Failure LaunchResources × Ports :=
  let preserved := if reusePorts then existing else ∅
  match ensureGlobals outside.host outside.globals build.globals s with
  | (.error err, s) =>
      (.error ⟨.globals, err⟩,
        releaseUnpreservedStackPorts outside.host build.runId build.plan portMap ∅ preserved s)
  | (.ok globalPorts, s) =>
      let serviceSchemes := buildServiceSchemes build.plan build.globals
      let portMap := globalPorts ∪ portMap
      match resolveListenPorts outside.host build.runId portMap existing reusePorts
          build.plan.services.toList ∅ s with
      | (.error (name, err), s) => (.error ⟨.listen name, err⟩, s)
      | (.ok listenPortMap, s) =>
          let listenPortMap := build.globals.filterMap (fun name _ => portMap[name]?) ∪ listenPortMap
          match buildBaseEnv build portMap listenPortMap serviceSchemes with
          | .error err =>
              (.error ⟨.baseEnv, err⟩,
                releaseUnpreservedStackPorts outside.host build.runId build.plan portMap
                  listenPortMap preserved s)
          | .ok baseEnv => (.ok ⟨portMap, listenPortMap, serviceSchemes, baseEnv⟩, s)

/-- `build_new_launch_resources`. -/
def buildNewLaunchResources (s : Ports) : Except Failure LaunchResources × Ports :=
  match syncPortReservationsFromDisk outside s with
  | (.error err, s) => (.error ⟨.sync, err⟩, s)
  | (.ok _, s) =>
      match allocatePorts outside.host build.plan.services (Owner.service build.runId) s with
      | (.error err, s) => (.error ⟨.ports, err⟩, s)
      | (.ok portMap, s) => finishLaunchResources outside build ∅ false portMap s

/-- `build_refresh_launch_resources`. -/
def buildRefreshLaunchResources (existing : BTreeMap ExistingServiceSnapshot) (reusePorts : Bool)
    (s : Ports) : Except Failure LaunchResources × Ports :=
  match syncPortReservationsFromDisk outside s with
  | (.error err, s) => (.error ⟨.sync, err⟩, s)
  | (.ok _, s) =>
      match resolvePortsForRefresh outside.host build.runId build.plan.services existing
          reusePorts s with
      | (.error err, s) => (.error ⟨.ports, err⟩, s)
      | (.ok portMap, s) => finishLaunchResources outside build existing reusePorts portMap s

/-- `initialize_new_run_layout`. -/
def initializeNewRunLayout (s : Store) : Except Failure Unit × Store :=
  match outside.directories with
  | .error err => (.error ⟨.layout, err⟩, s)
  | .ok _ =>
      match outside.config with
      | .error err => (.error ⟨.layout, err⟩, s)
      | .ok raw =>
          match outside.written with
          | .error err => (.error ⟨.layout, err⟩, s)
          | .ok _ =>
              let snapshots := s.snapshots.insert build.runId raw
              match syncPortReservationsFromDisk outside s.ports with
              | (.error err, ports) =>
                  (.error ⟨.sync, err⟩, { s with snapshots := snapshots, ports := ports })
              | (.ok _, ports) => (.ok (), { s with snapshots := snapshots, ports := ports })

/-- `create_run_record`. -/
def createRunRecord (resources : LaunchResources) (s : Store) : Except Failure Unit × Store :=
  if build.runId ∈ s.runs then
    (.error ⟨.create, s!"run {build.runId} already exists"⟩, s)
  else
    let run := RunRecord.new build.runId build.plan.name build.projectDir build.configDir
      resources.baseEnv outside.now
    (.ok (), { s with runs := s.runs.insert build.runId run })

/-- `up` of a new run, until `launch_services`. -/
def upNewRun (s : Store) : Except Failure LaunchResources × Store :=
  match initializeNewRunLayout outside build s with
  | (.error failure, s) => (.error failure, s)
  | (.ok _, s) =>
      match buildNewLaunchResources outside build s.ports with
      | (.error failure, ports) => (.error failure, { s with ports := ports })
      | (.ok resources, ports) =>
          match createRunRecord outside build resources { s with ports := ports } with
          | (.error failure, s) => (.error failure, s)
          | (.ok _, s) => (.ok resources, s)

/-- `snapshot_run_config`; a configuration that cannot be read or written is
    passed over. -/
def snapshotRunConfig (s : Store) : Store :=
  match outside.config, outside.written with
  | .ok raw, .ok _ => { s with snapshots := s.snapshots.insert build.runId raw }
  | _, _ => s

/-- `refresh_run`, until `launch_services`. -/
def refreshRun (s : Store) : Except Failure LaunchResources × Store :=
  match s.runs[build.runId]? with
  | none => (.error ⟨.lookup, s!"run {build.runId} not found"⟩, s)
  | some run =>
      let existing := existingServices run
      let removed := removedServices run build.plan
      let reusePorts := run.stoppedAt.isNone
      let run := (removeServicesMissingFromStack run removed).1
      let runs := s.runs.insert build.runId run
      match releaseRemoved outside.host build.runId existing removed s.ports with
      | (.error err, ports) => (.error ⟨.remove, err⟩, { s with runs := runs, ports := ports })
      | (.ok _, ports) =>
          match buildRefreshLaunchResources outside build existing reusePorts ports with
          | (.error failure, ports) => (.error failure, { s with runs := runs, ports := ports })
          | (.ok resources, ports) =>
              let run := updateRunLaunchResources run resources.baseEnv
              (.ok resources, snapshotRunConfig outside build
                { s with runs := runs.insert build.runId run, ports := ports })

end Builds

end DevstackResources
