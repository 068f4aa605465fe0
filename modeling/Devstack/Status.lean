import Devstack.Readiness
import Devstack.Stores

/-! # Status — what a status request reads and writes back

    `build_status` of `src/app/queries/status.rs` derives a status from a copy
    of the run and the units' states; `reconcile_run` of
    `src/app/commands/reconcile.rs` writes it into the run as it is by then.

    The rule on one service is `unitRule`; `reconcile_services` says that the
    write puts the derived states there whatever the run holds. -/

namespace DevstackStatus

open DevstackModel DevstackStores DevstackReadiness

/-- `ServiceStatus`, without its health counters, uptime and recent errors. -/
structure ServiceStatus where
  desired : String
  systemd : Option UnitStatus
  ready : Bool
  state : ServiceState
  lastFailure : Option String
  url : Option String
  autoRestart : Bool
  watchPaused : Bool
  watchActive : Bool
  deriving DecidableEq

/-- `RunStatusResponse`. -/
structure RunStatus where
  runId : String
  stack : String
  projectDir : String
  state : RunLifecycle
  services : BTreeMap ServiceStatus

/-- A state and a failure reason: what status derives for a service. -/
abbrev Standing := ServiceState × Option String

/-- The standing a record has. -/
def standing (record : ServiceRecord) : Standing :=
  (record.runtime.state, record.runtime.lastFailure)

/-- The test that a unit counts as failed. -/
def unitFailing (unit : UnitStatus) : Bool :=
  decide (unit.activeState = "failed") || decide (unit.result = some "start-limit-hit")
    || (decide (unit.activeState ≠ "active") && unit.result.any (· ≠ "success"))

/-- The state derived for a service whose unit counts as failed. -/
def failingState : ServiceState → ServiceState
  | .starting => .failed
  | .ready => .degraded
  | .failed => .failed
  | .stopped => .stopped
  | .degraded => .degraded

/-- The failure derived for a service whose unit counts as failed. -/
def failingFailure (unit : UnitStatus) (failure : Option String) : Option String :=
  if failure = none ∧ unit.result ≠ some "success" then unit.result else failure

/-- The unit-status rule: what `build_status` makes of a standing. -/
def unitRule (runState : RunLifecycle) (unit : Option UnitStatus) (s : Standing) : Standing :=
  match unit with
  | some unit =>
      if runState ≠ .stopped ∧ unitFailing unit = true then
        (failingState s.1, failingFailure unit s.2)
      else s
  | none => s

/-- `ServiceRecord::watch_active`. -/
def watchActive (record : ServiceRecord) : Bool :=
  record.spec.autoRestart && record.handles.watch.isSome && !record.runtime.watchPaused

/-- The body of the loop over the services. -/
def serviceStatus (unitStatus : String → Option UnitStatus) (runState : RunLifecycle)
    (record : ServiceRecord) : ServiceStatus :=
  let systemd := unitStatus record.launch.unitName
  let derived := unitRule runState systemd (standing record)
  { desired := if runState = .stopped then "stopped" else "running"
    systemd := systemd
    ready := decide (derived.1 = .ready)
    state := derived.1
    lastFailure := derived.2
    url := record.launch.url
    autoRestart := record.spec.autoRestart
    watchPaused := record.runtime.watchPaused
    watchActive := watchActive record }

/-- `build_status` on a copy of the run. -/
def buildStatus (unitStatus : String → Option UnitStatus) (run : RunRecord) : RunStatus :=
  let services := run.services.map (fun _ record => serviceStatus unitStatus run.state record)
  { runId := run.runId
    stack := run.stack
    projectDir := run.projectDir
    state := derivedRunState (services.toList.map (fun kv => kv.2.state)) run.state
    services := services }

/-- The write of one service's status. -/
def writeStatus (record : ServiceRecord) (status : ServiceStatus) : ServiceRecord :=
  { record with
    runtime :=
      { record.runtime with state := status.state, lastFailure := status.lastFailure } }

/-- Whether the locked step of `reconcile_run` changed the run. -/
def reconcileChanged (status : RunStatus) (run : RunRecord) : Bool :=
  status.services.toList.any (fun kv =>
      match run.services[kv.1]? with
      | some record => decide (standing record ≠ (kv.2.state, kv.2.lastFailure))
      | none => false)
    || (decide (status.state ≠ run.state) && decide (status.state ≠ .stopped))

/-- The locked step of `reconcile_run`. -/
def reconcile (status : RunStatus) (run : RunRecord) : RunRecord :=
  { run with
    state := status.state
    services := run.services.map (fun name record =>
      match status.services[name]? with
      | some service => writeStatus record service
      | none => record) }

/-! ## The rule -/

section Rule

variable (unit : Option UnitStatus)

/-- Under a stopped run the rule changes nothing. -/
@[simp] theorem unitRule_stopped (s : Standing) : unitRule .stopped unit s = s := by
  cases unit <;> simp [unitRule]

end Rule

section Reconcile

variable (unitStatus : String → Option UnitStatus)

theorem buildStatus_get (run : RunRecord) (name : String) :
    (buildStatus unitStatus run).services[name]?
      = (run.services[name]?).map (serviceStatus unitStatus run.state) := by
  simp [buildStatus]

/-- The write puts the derived standing of the copy in place of what the run has. -/
theorem reconcile_services (copy run : RunRecord) (name : String) :
    ((reconcile (buildStatus unitStatus copy) run).services[name]?).map standing
      = match run.services[name]?, copy.services[name]? with
        | some _, some old =>
            some (unitRule copy.state (unitStatus old.launch.unitName) (standing old))
        | some record, none => some (standing record)
        | none, _ => none := by
  simp only [reconcile, Std.ExtTreeMap.getElem?_map, buildStatus_get]
  cases run.services[name]? with
  | none => rfl
  | some record =>
      cases copy.services[name]? with
      | none => rfl
      | some old => rfl

end Reconcile

end DevstackStatus
