import Devstack.LogFmt
import Devstack.Validate

/-! # Prepare — the environment, the command and the plan of one service

    `src/app/launch/context.rs` and `prepare_service` of `src/app/launch/prepare.rs`,
    with `resolve_env_vars` of `src/config/env.rs` and the log paths of `src/paths.rs`.

    What is not code of the repository is a `Tools`: the template engine, the parser
    of env files, the encoding of the fingerprint, the hash over the watched files,
    the daemon's own environment.  What is on disk is a `Files`, so that two
    preparations can be compared over different contents. -/

namespace DevstackPrepare

open DevstackModel DevstackConfig DevstackLaunch DevstackExclusivity DevstackResources
  DevstackValidate DevstackLogFmt

-- ── ids and scopes ────────────────────────────────────────────────────────────

inductive InstanceScope where
  | run (runId stack : String)
  | global (key projectDir name : String)
  deriving DecidableEq, Repr

/-- `unit_name_for_global`. -/
def unitNameForGlobal (key service : String) : String :=
  s!"devstack-global-{sanitizeEnvKey key}-{sanitizeEnvKey service}.service"

/-- `unit_name_for_scope`. -/
def unitNameForScope (scope : InstanceScope) (service : String) : String :=
  match scope with
  | .run runId _ => unitNameForRun runId service
  | .global key _ _ => unitNameForGlobal key service

/-- `readiness_url`. -/
def readinessUrl (scheme : String) (port : Port) : String :=
  if scheme = "https" then s!"https://localhost:{port}" else s!"http://localhost:{port}"

-- ── the outside ───────────────────────────────────────────────────────────────

/-- One entry of the `services` table of a template context. -/
structure ServiceEntry where
  port : Option Port
  url : Option String
  listenPort : Option Port
  deriving DecidableEq

/-- The value templates are rendered with. -/
structure TemplateContext where
  runId : Option String
  global : Option (String × String)
  projectDir : String
  stackName : String
  services : BTreeMap ServiceEntry
  deriving DecidableEq

/-- The value `build_watch_fingerprint` encodes. -/
structure FingerprintPayload where
  cmd : String
  cwd : String
  port : Option Port
  listenPort : Option Port
  scheme : String
  captureApi : Bool
  captureApiBodyLimit : Nat
  captureApiIgnore : List String
  deps : List String
  portEnv : String
  readiness : ReadinessSpec
  envFile : String
  env : BTreeMap String
  watch : List String
  ignore : List String
  deriving DecidableEq

/-- What stands at a path: nothing, something that cannot be read, or bytes. -/
abbrev Files := String → Option (Except String (List UInt8))

/-- The code that is not the repository's, and the daemon's own environment. -/
structure Tools where
  render : String → TemplateContext → Except String String
  dotenv : List UInt8 → Except String (List (String × String))
  encode : FingerprintPayload → List UInt8
  watchHash : Files → String → Option (List String) → List String → List String → List UInt8
    → Except String String
  home : Option String
  vars : String → Option String
  dataDir : Except String String
  projectHash : String → String

-- ── paths ─────────────────────────────────────────────────────────────────────

def isAbsolute (path : String) : Bool := path.startsWith "/"

/-- `PathBuf::join`. -/
def joinPath (base path : String) : String :=
  if isAbsolute path then path
  else if base = "" ∨ base.endsWith "/" = true then base ++ path
  else base ++ "/" ++ path

/-- `Path::file_stem` of a path that does not end in `/` or `..`. -/
def fileStem (path : String) : String :=
  let name := path.toList.rtakeWhile (· ≠ '/')
  let before := (name.rdropWhile (· ≠ '.')).dropLast
  String.ofList (if before = [] then name else before)

/-- The separators and `.` components in front of a path. -/
def trimLeft : List Char → List Char
  | '/' :: cs => trimLeft cs
  | '.' :: '/' :: cs => trimLeft cs
  | ['.'] => []
  | cs => cs

/-- `expand_home`. -/
def expandHome (tools : Tools) (path : String) : String :=
  match path.toList, tools.home with
  | ['~'], some home => joinPath home ""
  | '~' :: '/' :: rest, some home => joinPath home (String.ofList (trimLeft rest))
  | _, _ => path

/-- `run_log_path`. -/
def runLogPath (tools : Tools) (runId service : String) : Except String String := do
  validateNameForPathComponent "service" service
  validateNameForPathComponent "run id" runId
  let base ← tools.dataDir
  return joinPath (joinPath (joinPath (joinPath base "runs") runId) "logs") (service ++ ".log")

/-- `global_log_path`. -/
def globalLogPath (tools : Tools) (projectDir name : String) : Except String String := do
  validateNameForPathComponent "service" name
  let base ← tools.dataDir
  let key ← globalKey (tools.projectHash projectDir) name
  return joinPath (joinPath (joinPath (joinPath base "globals") key) "logs") (name ++ ".log")

/-- `log_path_for_scope`. -/
def logPathForScope (tools : Tools) (scope : InstanceScope) (projectDir service : String) :
    Except String String :=
  match scope with
  | .run runId _ => runLogPath tools runId service
  | .global _ _ name => globalLogPath tools projectDir name

-- ── injected variables ────────────────────────────────────────────────────────

/-- The families of variables that are named after a service. -/
inductive KeyFamily where
  | port | url | listenPort | depPort | depUrl
  deriving DecidableEq, Repr

/-- The variable a family has for a service. -/
def injectedKey (family : KeyFamily) (service : String) : String :=
  match family with
  | .port => s!"DEV_PORT_{sanitizeEnvKey service}"
  | .url => s!"DEV_URL_{sanitizeEnvKey service}"
  | .listenPort => s!"DEV_LISTEN_PORT_{sanitizeEnvKey service}"
  | .depPort => s!"DEV_DEP_{sanitizeEnvKey service}_PORT"
  | .depUrl => s!"DEV_DEP_{sanitizeEnvKey service}_URL"

/-- The variables `build_base_env` starts with. -/
def scopeEnv (scope : InstanceScope) (projectDir : String) : BTreeMap String :=
  let env : BTreeMap String :=
    match scope with
    | .run runId stack => (∅ : BTreeMap String).insert "DEV_RUN_ID" runId
        |>.insert "DEV_STACK" stack
    | .global key _ name => (∅ : BTreeMap String).insert "DEV_STACK" "globals"
        |>.insert "DEV_GLOBAL_KEY" key |>.insert "DEV_GLOBAL_NAME" name
  env.insert "DEV_PROJECT_DIR" projectDir

/-- The body of the loop over the port map. -/
def injectPort (schemes : BTreeMap String) (env : BTreeMap String)
    (entry : String × Option Port) : BTreeMap String :=
  match entry.2 with
  | none => env
  | some port =>
      (env.insert (injectedKey .port entry.1) (toString port)).insert
        (injectedKey .url entry.1) (readinessUrl (schemes.getD entry.1 "http") port)

/-- The body of the loop over the listen port map. -/
def injectListenPort (env : BTreeMap String) (entry : String × Option Port) : BTreeMap String :=
  match entry.2 with
  | none => env
  | some port => env.insert (injectedKey .listenPort entry.1) (toString port)

/-- `build_base_env`. -/
def buildBaseEnv (scope : InstanceScope) (projectDir : String)
    (portMap listenPortMap : BTreeMap (Option Port)) (schemes : BTreeMap String) :
    BTreeMap String :=
  listenPortMap.toList.foldl injectListenPort
    (portMap.toList.foldl (injectPort schemes) (scopeEnv scope projectDir))

/-- The body of the loop of `inject_dep_env`. -/
def injectDep (portMap : BTreeMap (Option Port)) (schemes : BTreeMap String)
    (env : BTreeMap String) (dep : String) : BTreeMap String :=
  match portMap[dep]? with
  | some (some port) =>
      (env.insert (injectedKey .depPort dep) (toString port)).insert
        (injectedKey .depUrl dep) (readinessUrl (schemes.getD dep "http") port)
  | _ => env

/-- `inject_dep_env`. -/
def injectDepEnv (env : BTreeMap String) (svc : ServiceConfig)
    (portMap : BTreeMap (Option Port)) (schemes : BTreeMap String) : BTreeMap String :=
  svc.deps.foldl (injectDep portMap schemes) env

-- ── templates ─────────────────────────────────────────────────────────────────

/-- The body of the loop of `build_template_context`. -/
def addEntry (listenPortMap : BTreeMap (Option Port)) (schemes : BTreeMap String)
    (services : BTreeMap ServiceEntry) (entry : String × Option Port) : BTreeMap ServiceEntry :=
  let value : ServiceEntry :=
    { port := entry.2
      url := entry.2.map (readinessUrl (schemes.getD entry.1 "http"))
      listenPort := (listenPortMap[entry.1]?).join }
  let underscoreKey := String.ofList (entry.1.toList.map (fun ch => if ch = '-' then '_' else ch))
  (if underscoreKey ≠ entry.1 then services.insert underscoreKey value else services).insert
    entry.1 value

/-- `build_template_context`. -/
def buildTemplateContext (scope : InstanceScope) (projectDir : String)
    (portMap listenPortMap : BTreeMap (Option Port)) (schemes : BTreeMap String) :
    TemplateContext :=
  let services := portMap.toList.foldl (addEntry listenPortMap schemes) ∅
  match scope with
  | .run runId stack => ⟨some runId, none, projectDir, stack, services⟩
  | .global key _ name => ⟨none, some (key, name), projectDir, "globals", services⟩

section Rendering

variable (tools : Tools) (ctx : TemplateContext)

/-- `render_template`. -/
def renderTemplate (template : String) : Except String String := tools.render template ctx

/-- `render_patterns`. -/
def renderPatterns : List String → Except String (List String)
  | [] => .ok []
  | pattern :: patterns => do
      let rendered ← renderTemplate tools ctx pattern
      let rest ← renderPatterns patterns
      return rendered :: rest

/-- The loop of `render_env`. -/
def renderEntries : List (String × String) → BTreeMap String → Except String (BTreeMap String)
  | [], out => .ok out
  | (key, value) :: entries, out => do
      let rendered ← renderTemplate tools ctx value
      renderEntries entries (out.insert key rendered)

/-- `render_env`. -/
def renderEnv (env : BTreeMap String) : Except String (BTreeMap String) :=
  renderEntries tools ctx env.toList ∅

/-- `resolve_rendered_path`. -/
def resolveRenderedPath (template : String) : Except String String := do
  let rendered ← renderTemplate tools ctx template
  return expandHome tools rendered

/-- `resolve_cwd_path`. -/
def resolveCwdPath (template baseDir : String) : Except String String := do
  let rendered ← resolveRenderedPath tools ctx template
  return joinPath baseDir rendered

/-- `resolve_env_file_path`. -/
def resolveEnvFilePath (svc : ServiceConfig) (cwd : String) : Except String String :=
  match svc.envFile with
  | some envFile => do
      let rendered ← resolveRenderedPath tools ctx envFile
      return joinPath cwd rendered
  | none => .ok (joinPath cwd ".env")

end Rendering

-- ── env files ─────────────────────────────────────────────────────────────────

/-- Entries written over a map, the last one for a key counting. -/
def extendEnv (env : BTreeMap String) (entries : List (String × String)) : BTreeMap String :=
  entries.foldl (fun env entry => env.insert entry.1 entry.2) env

/-- `load_env_file`. -/
def loadEnvFile (tools : Tools) (files : Files) (path : String) :
    Except String (BTreeMap String) :=
  match files path with
  | none => .ok ∅
  | some (.error err) => .error s!"read env file {path}: {err}"
  | some (.ok bytes) =>
      match tools.dotenv bytes with
      | .error err => .error err
      | .ok entries => .ok (extendEnv ∅ entries)

/-- `merge_env_file`. -/
def mergeEnvFile (into fileEnv : BTreeMap String) : BTreeMap String :=
  extendEnv into (fileEnv.toList.filter (fun entry => !entry.1.startsWith "DEV_"))

-- ── config/env.rs ─────────────────────────────────────────────────────────────

/-- Where the loop of `resolve_env_vars` stands. -/
inductive Scan where
  | text
  | braced (varName : List Char)
  | bare (varName : List Char)

section Resolve

variable (vars : String → Option String)

/-- What a name between braces is replaced by. -/
def bracedValue (varName : List Char) (closed : Bool) : List Char :=
  match vars (String.ofList varName) with
  | some value => value.toList
  | none => '$' :: '{' :: (varName ++ if closed then ['}'] else [])

/-- What a name without braces is replaced by. -/
def bareValue (varName : List Char) : List Char :=
  if varName = [] then ['$']
  else
    match vars (String.ofList varName) with
    | some value => value.toList
    | none => '$' :: varName

def resolveScan : Scan → List Char → List Char
  | .text, [] => []
  | .text, '$' :: '{' :: cs => resolveScan (.braced []) cs
  | .text, '$' :: cs => resolveScan (.bare []) cs
  | .text, c :: cs => c :: resolveScan .text cs
  | .braced varName, [] => bracedValue vars varName false
  | .braced varName, '}' :: cs => bracedValue vars varName true ++ resolveScan .text cs
  | .braced varName, c :: cs => resolveScan (.braced (varName ++ [c])) cs
  | .bare varName, [] => bareValue vars varName
  | .bare varName, '$' :: '{' :: cs => bareValue vars varName ++ resolveScan (.braced []) cs
  | .bare varName, '$' :: cs => bareValue vars varName ++ resolveScan (.bare []) cs
  | .bare varName, c :: cs =>
      if c.isAlphanum || c == '_' then resolveScan (.bare (varName ++ [c])) cs
      else bareValue vars varName ++ c :: resolveScan .text cs

/-- `resolve_env_vars`. -/
def resolveEnvVars (value : String) : String :=
  String.ofList (resolveScan vars .text value.toList)

/-- `resolve_env_map`. -/
def resolveEnvMap (env : BTreeMap String) : BTreeMap String :=
  env.map (fun _ value => resolveEnvVars vars value)

end Resolve

-- ── prepare_service ───────────────────────────────────────────────────────────

/-- What `prepare_service` is called with, besides the service. -/
structure PrepareArgs where
  scope : InstanceScope
  projectDir : String
  configDir : String
  portMap : BTreeMap (Option Port)
  listenPortMap : BTreeMap (Option Port)
  serviceSchemes : BTreeMap String
  baseEnv : BTreeMap String
  globalEnv : BTreeMap String
  globalEnvFile : Option String
  deriving DecidableEq

def PrepareArgs.context (args : PrepareArgs) : TemplateContext :=
  buildTemplateContext args.scope args.projectDir args.portMap args.listenPortMap
    args.serviceSchemes

/-- The port of a service. -/
def PrepareArgs.port (args : PrepareArgs) (name : String) : Option Port :=
  args.portMap.getD name none

/-- The port a service listens on. -/
def PrepareArgs.listenPort (args : PrepareArgs) (name : String) : Option Port :=
  args.listenPortMap.getD name (args.port name)

/-- `capture_api` of a prepared service; only services of a run are captured. -/
def preparedCaptureApi (args : PrepareArgs) (name : String) (svc : ServiceConfig) : Bool :=
  match args.scope with
  | .run _ _ => captureApiEnabled svc (args.port name).isSome (schemeOf svc)
  | .global _ _ _ => false

/-- `capture_api_ignore` of a prepared service. -/
def preparedCaptureApiIgnore (svc : ServiceConfig) : List String :=
  match svc.readiness.bind (·.http) with
  | some http => addPattern (captureApiIgnorePaths svc) http.path
  | none => captureApiIgnorePaths svc

section Prepare

variable (tools : Tools) (files : Files) (args : PrepareArgs)

/-- The environment before the service's own env file. -/
def underEnv : Except String (BTreeMap String) := do
  let globalFileEnv ←
    match args.globalEnvFile with
    | some path => loadEnvFile tools files path
    | none => .ok ∅
  let globalEnv ← renderEnv tools args.context args.globalEnv
  return extendEnv (mergeEnvFile args.baseEnv globalFileEnv) globalEnv.toList

/-- What is written over the env file: the dependencies, the listen port and the
    service's own variables; then the references are resolved. -/
def overEnv (name : String) (svc : ServiceConfig) (renderedEnv env : BTreeMap String) :
    BTreeMap String :=
  let env := injectDepEnv env svc args.portMap args.serviceSchemes
  let env :=
    match args.listenPort name with
    | some listenPort => env.insert (portEnv svc) (toString listenPort)
    | none => env
  (resolveEnvMap tools.vars (extendEnv env renderedEnv.toList)).insert "DEV_GRACE_MS" "2000"

/-- The environment of a prepared service. -/
def preparedEnv (name : String) (svc : ServiceConfig) (envFilePath : String) :
    Except String (BTreeMap String) := do
  let under ← underEnv tools files args
  let fileEnv ← loadEnvFile tools files envFilePath
  let renderedEnv ← renderEnv tools args.context svc.env
  return overEnv tools args name svc renderedEnv (mergeEnvFile under fileEnv)

/-- The patterns `compute_watch_hash` is given. -/
def hashPatterns (patterns : List String) : Option (List String) :=
  if patterns.isEmpty then none else some patterns

/-- The check of the patterns of a service that restarts by itself. -/
def checkWatches (name : String) (svc : ServiceConfig) (patterns : List String) :
    Except String Unit :=
  if svc.autoRestart && patterns.all (fun pattern => pattern.toList.all isWhitespace) then
    .error s!"service {name} sets auto_restart=true but has no watch patterns"
  else .ok ()

/-- `prepare_service`. -/
def prepareService (name : String) (svc : ServiceConfig) : Except String PreparedService := do
  let port := args.port name
  let listenPort := args.listenPort name
  let captureApi := preparedCaptureApi args name svc
  let captureApiIgnore := preparedCaptureApiIgnore svc
  let cwd ← resolveCwdPath tools args.context (svc.cwd.getD args.projectDir) args.configDir
  let envFilePath ← resolveEnvFilePath tools args.context svc cwd
  let env ← preparedEnv tools files args name svc envFilePath
  let readiness ← readinessSpec svc listenPort.isSome
  let logPath ← logPathForScope tools args.scope args.projectDir name
  let cmd ← renderTemplate tools args.context svc.cmd
  let watch ← renderPatterns tools args.context svc.watch
  let ignore ← renderPatterns tools args.context svc.ignore
  checkWatches name svc watch
  let payload : FingerprintPayload :=
    { cmd, cwd, port, listenPort, scheme := schemeOf svc, captureApi
      captureApiBodyLimit := captureApiBodyLimit svc, captureApiIgnore, deps := svc.deps
      portEnv := portEnv svc, readiness, envFile := envFilePath, env, watch, ignore }
  let watchFingerprint := tools.encode payload
  let watchHash ← tools.watchHash files cwd (hashPatterns watch) ignore [envFilePath]
    watchFingerprint
  .ok
    { name, unitName := unitNameForScope args.scope name, port, listenPort
      scheme := schemeOf svc, url := port.map (readinessUrl (schemeOf svc)), captureApi
      captureApiBodyLimit := captureApiBodyLimit svc, captureApiIgnore, deps := svc.deps
      readiness, logPath, cwd, env, cmd, watchHash, watchPatterns := watch
      ignorePatterns := ignore, watchExtraFiles := [envFilePath], watchFingerprint
      autoRestart := svc.autoRestart }

end Prepare

-- ── what a prepared service carries ───────────────────────────────────────────

theorem bind_ok {ε α β : Type} {x : Except ε α} {f : α → Except ε β} {b : β} :
    x >>= f = .ok b ↔ ∃ a, x = .ok a ∧ f a = .ok b := by
  cases x with
  | error err => exact ⟨fun h => (nomatch h), fun ⟨_, h, _⟩ => (nomatch h)⟩
  | ok a => exact ⟨fun h => ⟨a, rfl, h⟩, fun ⟨_, h, hf⟩ => Except.ok.inj h ▸ hf⟩

section Prepared

variable (tools : Tools) (files : Files) (args : PrepareArgs)

/-- The working directory and the env file of a service. -/
def launchPaths (svc : ServiceConfig) : Except String (String × String) := do
  let cwd ← resolveCwdPath tools args.context (svc.cwd.getD args.projectDir) args.configDir
  let envFilePath ← resolveEnvFilePath tools args.context svc cwd
  return (cwd, envFilePath)

/-- The environment a service is prepared with. -/
def launchEnv (name : String) (svc : ServiceConfig) : Except String (BTreeMap String) := do
  let paths ← launchPaths tools args svc
  preparedEnv tools files args name svc paths.2

/-- The payload of a prepared service's fingerprint. -/
def payloadOf (svc : ServiceConfig) (prepared : PreparedService) (envFilePath : String) :
    FingerprintPayload where
  cmd := prepared.cmd
  cwd := prepared.cwd
  port := prepared.port
  listenPort := prepared.listenPort
  scheme := prepared.scheme
  captureApi := prepared.captureApi
  captureApiBodyLimit := prepared.captureApiBodyLimit
  captureApiIgnore := prepared.captureApiIgnore
  deps := prepared.deps
  portEnv := portEnv svc
  readiness := prepared.readiness
  envFile := envFilePath
  env := prepared.env
  watch := prepared.watchPatterns
  ignore := prepared.ignorePatterns

/-- What `prepare_service` computes from its arguments and the files, part by part. -/
structure Carries (name : String) (svc : ServiceConfig) (prepared : PreparedService)
    (envFilePath : String) : Prop where
  paths : launchPaths tools args svc = .ok (prepared.cwd, envFilePath)
  env : preparedEnv tools files args name svc envFilePath = .ok prepared.env
  readiness : readinessSpec svc (args.listenPort name).isSome = .ok prepared.readiness
  logPath : logPathForScope tools args.scope args.projectDir name = .ok prepared.logPath
  cmd : renderTemplate tools args.context svc.cmd = .ok prepared.cmd
  watch : renderPatterns tools args.context svc.watch = .ok prepared.watchPatterns
  ignore : renderPatterns tools args.context svc.ignore = .ok prepared.ignorePatterns
  watches : checkWatches name svc prepared.watchPatterns = .ok ()
  fingerprint : prepared.watchFingerprint = tools.encode (payloadOf svc prepared envFilePath)
  hash : tools.watchHash files prepared.cwd (hashPatterns prepared.watchPatterns)
    prepared.ignorePatterns [envFilePath] prepared.watchFingerprint = .ok prepared.watchHash
  name_eq : prepared.name = name
  unitName : prepared.unitName = unitNameForScope args.scope name
  port : prepared.port = args.port name
  listenPort : prepared.listenPort = args.listenPort name
  scheme : prepared.scheme = schemeOf svc
  url : prepared.url = (args.port name).map (readinessUrl (schemeOf svc))
  captureApi : prepared.captureApi = preparedCaptureApi args name svc
  captureApiBodyLimit : prepared.captureApiBodyLimit = DevstackValidate.captureApiBodyLimit svc
  captureApiIgnore : prepared.captureApiIgnore = preparedCaptureApiIgnore svc
  deps : prepared.deps = svc.deps
  extraFiles : prepared.watchExtraFiles = [envFilePath]
  autoRestart : prepared.autoRestart = svc.autoRestart

variable {tools files args} {name : String} {svc : ServiceConfig} {prepared : PreparedService}

/-- A service is prepared exactly with the parts that its arguments and the files give. -/
theorem prepareService_ok :
    prepareService tools files args name svc = .ok prepared
      ↔ ∃ envFilePath, Carries tools files args name svc prepared envFilePath := by
  constructor
  · intro h
    simp only [prepareService, bind_ok] at h
    obtain ⟨cwd, hcwd, envFilePath, hfile, env, henv, readiness, hready, logPath, hlog, cmd, hcmd,
      watch, hwatch, ignore, hignore, ⟨⟩, hwatches, hash, hhash, hprepared⟩ := h
    obtain rfl := Except.ok.inj hprepared
    have hpaths : launchPaths tools args svc = .ok (cwd, envFilePath) := by
      simp only [launchPaths, bind_ok]
      exact ⟨cwd, hcwd, envFilePath, hfile, rfl⟩
    exact ⟨envFilePath, hpaths, henv, hready, hlog, hcmd, hwatch, hignore, hwatches, rfl, hhash,
      rfl, rfl, rfl, rfl, rfl, rfl, rfl, rfl, rfl, rfl, rfl, rfl⟩
  · rintro ⟨envFilePath, h⟩
    have hpaths := h.paths
    simp only [launchPaths, bind_ok] at hpaths
    obtain ⟨cwd, hcwd, path, hfile, hpair⟩ := hpaths
    obtain ⟨rfl, rfl⟩ := Prod.mk.inj (Except.ok.inj hpair)
    have hhash := h.hash
    rw [h.fingerprint] at hhash
    simp only [prepareService, bind_ok]
    refine ⟨_, hcwd, _, hfile, _, h.env, _, h.readiness, _, h.logPath, _, h.cmd, _, h.watch, _,
      h.ignore, (), h.watches, prepared.watchHash, ?_, ?_⟩
    · rw [← hhash, payloadOf, h.port, h.listenPort, h.scheme, h.captureApi, h.captureApiBodyLimit,
        h.captureApiIgnore, h.deps]
    · have hfingerprint := h.fingerprint
      rw [payloadOf, h.port, h.listenPort, h.scheme, h.captureApi, h.captureApiBodyLimit,
        h.captureApiIgnore, h.deps] at hfingerprint
      rw [← hfingerprint, ← h.unitName, ← h.url, ← h.port, ← h.listenPort, ← h.captureApi,
        ← h.scheme, ← h.captureApiBodyLimit, ← h.captureApiIgnore, ← h.deps, ← h.extraFiles,
        ← h.autoRestart, ← h.name_eq]

/-- The environment of a prepared service. -/
theorem Carries.launchEnv {envFilePath : String}
    (h : Carries tools files args name svc prepared envFilePath) :
    launchEnv tools files args name svc = .ok prepared.env := by
  simp only [DevstackPrepare.launchEnv, bind_ok]
  exact ⟨_, h.paths, h.env⟩

end Prepared

end DevstackPrepare
