import Mathlib.Order.Basic
import Std.Data.ExtTreeMap

/-! # The data model — runs, services, globals and their manifests

    The records of `src/model` and `src/persistence/manifest.rs`.  A `BTreeMap`
    keyed by names is an extensional tree map; paths and timestamps are strings,
    as the manifests store them; a `Duration` is a number of milliseconds.

    An `Arc<AtomicBool>` shared by a handle and the task it was made for is a
    number (`HandleId`): the raised flags are kept in the daemon's state. -/

namespace DevstackModel

/-- `BTreeMap<String, α>`. -/
abbrev BTreeMap (α : Type) := Std.ExtTreeMap String α

/-- `u16` port numbers. -/
abbrev Port := UInt16

/-- The identity of one `HealthHandle` or `ServiceWatchHandle`. -/
abbrev HandleId := Nat

-- ── model/lifecycle.rs ────────────────────────────────────────────────────────

inductive ServiceState where
  | starting | ready | degraded | stopped | failed
  deriving DecidableEq, Repr

inductive RunLifecycle where
  | starting | running | degraded | stopped
  deriving DecidableEq, Repr

-- ── model/readiness.rs ────────────────────────────────────────────────────────

inductive ReadinessKind where
  | tcp
  | http (path : String) (expectMin expectMax : UInt16)
  | logRegex (pattern : String)
  | cmd (command : String)
  | delay (duration : Nat)
  | exit
  | none
  deriving DecidableEq, Repr

structure ReadinessSpec where
  kind : ReadinessKind
  timeout : Nat
  deriving DecidableEq, Repr

-- ── model/service.rs ──────────────────────────────────────────────────────────

structure ServiceSpec where
  name : String
  deps : List String
  readiness : ReadinessSpec
  autoRestart : Bool
  watchPatterns : List String
  ignorePatterns : List String
  deriving DecidableEq

structure ServiceLaunchPlan where
  unitName : String
  cwd : String
  env : BTreeMap String
  cmd : String
  logPath : String
  port : Option Port
  listenPort : Option Port
  scheme : String
  url : Option String
  captureApi : Bool
  captureApiBodyLimit : Nat
  captureApiIgnore : List String
  watchHash : String
  watchFingerprint : List UInt8
  watchExtraFiles : List String
  deriving DecidableEq

structure ServiceRuntimeState where
  state : ServiceState
  lastFailure : Option String
  lastStartedAt : Option String
  watchPaused : Bool
  deriving DecidableEq

/-- `ServiceRuntimeState::default`. -/
def ServiceRuntimeState.default : ServiceRuntimeState where
  state := .starting
  lastFailure := none
  lastStartedAt := none
  watchPaused := false

structure ServiceHandles where
  health : Option HandleId
  watch : Option HandleId
  apiCapture : Option HandleId
  deriving DecidableEq

structure ServiceRecord where
  spec : ServiceSpec
  launch : ServiceLaunchPlan
  runtime : ServiceRuntimeState
  handles : ServiceHandles
  deriving DecidableEq

/-- `ServiceRecord::new`. -/
def ServiceRecord.new (spec : ServiceSpec) (launch : ServiceLaunchPlan) : ServiceRecord where
  spec := spec
  launch := launch
  runtime := .default
  handles := ⟨none, none, none⟩

-- ── model/run.rs, model/global.rs ─────────────────────────────────────────────

structure RunRecord where
  runId : String
  stack : String
  projectDir : String
  configDir : String
  baseEnv : BTreeMap String
  services : BTreeMap ServiceRecord
  state : RunLifecycle
  createdAt : String
  stoppedAt : Option String
  deriving DecidableEq

/-- `RunRecord::new` at the instant `now`. -/
def RunRecord.new (runId stack projectDir configDir : String) (baseEnv : BTreeMap String)
    (now : String) : RunRecord where
  runId := runId
  stack := stack
  projectDir := projectDir
  configDir := configDir
  baseEnv := baseEnv
  services := ∅
  state := .starting
  createdAt := now
  stoppedAt := none

structure GlobalRecord where
  key : String
  name : String
  projectDir : String
  configPath : String
  service : ServiceRecord
  state : RunLifecycle
  createdAt : String
  stoppedAt : Option String
  deriving DecidableEq

-- ── persistence/manifest.rs ───────────────────────────────────────────────────

structure PersistedService where
  port : Option Port
  url : Option String
  listenPort : Option Port
  captureApi : Bool
  captureApiBodyLimit : Nat
  captureApiIgnore : List String
  state : ServiceState
  watchHash : Option String
  lastFailure : Option String
  lastStartedAt : Option String
  watchPaused : Bool
  deriving DecidableEq

structure PersistedRun where
  runId : String
  projectDir : String
  configDir : String
  stack : String
  services : BTreeMap PersistedService
  env : BTreeMap String
  state : RunLifecycle
  createdAt : String
  stoppedAt : Option String
  deriving DecidableEq

structure PersistedGlobal where
  key : String
  name : String
  projectDir : String
  configPath : String
  service : PersistedService
  env : BTreeMap String
  state : RunLifecycle
  createdAt : String
  stoppedAt : Option String
  deriving DecidableEq

/-- `run_manifest_is_restorable`. -/
def runManifestIsRestorable (pathExists : String → Bool) (manifest : PersistedRun) : Bool :=
  decide (manifest.state ≠ .stopped) && manifest.stoppedAt.isNone
    && pathExists manifest.projectDir

/-- `global_manifest_is_restorable`. -/
def globalManifestIsRestorable (pathExists : String → Bool) (manifest : PersistedGlobal) : Bool :=
  decide (manifest.state ≠ .stopped) && manifest.stoppedAt.isNone
    && pathExists manifest.projectDir && pathExists manifest.configPath

end DevstackModel
