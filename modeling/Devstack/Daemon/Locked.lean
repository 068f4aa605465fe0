import Devstack.Launch
import Devstack.Status

/-! # Locked steps — everything the daemon does under a store's lock

    Tasks of the daemon only touch a shared record inside `with_run_mut` or
    `with_global_mut`.  `RunOp` and `GlobalOp` list what they do there, one
    constructor for each such closure of the source; `World` holds the shared
    records and what the tasks share besides: the manifests on disk, the handles'
    flags, and, for the proofs only, the unit operations made so far and the
    number of launches begun of each service.

    `RunOp.standingAfter` is the specification: the standing (state and failure) every
    operation leaves each service with. -/

namespace DevstackLocked

open DevstackModel DevstackStores DevstackHealth DevstackConfig DevstackLaunch DevstackStatus

/-! ## Operations on a run -/

inductive RunOp where
  | beginRestart (service now : String)
  | restarted (service now : String)
  | markReady (service now : String) (fresh : HandleId)
  | markFailed (service now reason : String)
  | transition (service now : String) (change : Transition)
  | compareHash (service hash : String)
  | syncWatcher (service : String)
  | keepWatcher (service : String) (fresh : HandleId)
  | syncCapture (service : String)
  | keepCapture (service : String) (fresh : HandleId)
  | setWatchPaused (service : Option String) (value : Bool)
  | applyPrepared (service : String) (prepared : PreparedService)
  | store (service : String) (record : ServiceRecord)
  | removeMissing (removed : List String)
  | updateResources (baseEnv : BTreeMap String)
  | recompute
  | stopHandles
  | stopAll (now : String)
  | reconcile (status : RunStatus)

/-- The record the first locked step of `restart_service_inner` leaves. -/
def beginRestartRecord (runId service now : String) (record : ServiceRecord) :
    ServiceRecord × Option DaemonEvent :=
  let set := setServiceState runId service now record .starting
  (setLastFailure set.1 none, set.2)

/-- `record.runtime.last_started_at = Some(now_rfc3339())`. -/
def restartedRecord (now : String) (record : ServiceRecord) : ServiceRecord :=
  { record with runtime := { record.runtime with lastStartedAt := some now } }

/-- Whether the watcher's locked comparison finds a change to act on. -/
def hashDiffers (hash : String) (record : ServiceRecord) : Bool :=
  record.spec.autoRestart && !record.runtime.watchPaused
    && decide (record.launch.watchHash ≠ hash)

/-- The record the watcher's locked comparison leaves. -/
def compareHashRecord (hash : String) (record : ServiceRecord) : ServiceRecord :=
  if hashDiffers hash record then
    { record with launch := { record.launch with watchHash := hash } }
  else record

/-- The record `pause_watch` and `resume_watch` leave. -/
def pausedRecord (value : Bool) (record : ServiceRecord) : ServiceRecord :=
  if record.spec.autoRestart then
    { record with runtime := { record.runtime with watchPaused := value } }
  else record

/-- The record without its handles. -/
def bareRecord (record : ServiceRecord) : ServiceRecord :=
  { record with handles := ⟨none, none, none⟩ }

/-- A change of one service that stops no handle. -/
def plainly (f : ServiceRecord → ServiceRecord) (record : ServiceRecord) :
    ServiceRecord × List HandleId := (f record, [])

/-- The closure of `down` and `kill`. -/
def stopAllServices (now : String) (run : RunRecord) : RunRecord :=
  { run with
    state := .stopped
    stoppedAt := some now
    services := run.services.map
      (fun name record => (setServiceState run.runId name now record .stopped).1) }

/-- An operation on the run it is locked for, and the handles it stops. -/
def RunOp.apply (run : RunRecord) : RunOp → RunRecord × List HandleId
  | .beginRestart service now =>
      ((updateAndRecompute run service (beginRestartRecord run.runId service now)).1, [])
  | .restarted service now => updateService run service (plainly (restartedRecord now))
  | .markReady service now fresh => ((markServiceReady run.runId service now fresh run).1, [])
  | .markFailed service now reason =>
      ((markServiceFailed run.runId service now reason run).1, [])
  | .transition service now change =>
      ((applyTransition run.runId service now change run).1, [])
  | .compareHash service hash => updateService run service (plainly (compareHashRecord hash))
  | .syncWatcher service => updateService run service watchSyncBegin
  | .keepWatcher service fresh =>
      updateService run service
        (fun record => (watchSyncKeep fresh record, if watchSyncKeeps record then [] else [fresh]))
  | .syncCapture service => updateService run service captureSyncBegin
  | .keepCapture service fresh =>
      updateService run service
        (fun record =>
          (captureSyncKeep fresh record, if captureSyncKeeps record then [] else [fresh]))
  | .setWatchPaused (some service) value =>
      updateService run service (plainly (pausedRecord value))
  | .setWatchPaused none value =>
      ({ run with services := run.services.map (fun _ record => pausedRecord value record) }, [])
  | .applyPrepared service prepared =>
      updateService run service (fun record => applyPreparedToRuntime record prepared false)
  | .store service record => replaceServiceRecord run service record
  | .removeMissing removed => removeServicesMissingFromStack run removed
  | .updateResources baseEnv => (updateRunLaunchResources run baseEnv, [])
  | .recompute => ((recomputeRunState run).1, [])
  | .stopHandles =>
      ({ run with services := run.services.map (fun _ record => bareRecord record) },
        run.services.toList.flatMap (fun kv => liveHandles kv.2))
  | .stopAll now => (stopAllServices now run, [])
  | .reconcile status => (DevstackStatus.reconcile status run, [])

/-! ### What the operations leave -/

/-- The standing of a service in a run. -/
def standingIn (run : RunRecord) (service : String) : Option Standing :=
  (run.services[service]?).map standing

/-- The standing a health transition leaves. -/
def transitionStanding (change : Transition) (s : Standing) : Standing :=
  match change with
  | .healthy => s
  | .recoverToReady =>
      if s.1 = .degraded ∧ s.2 = some healthChecksFailing then (.ready, none) else s
  | .markDegraded => if s.1 = .ready then (.degraded, some healthChecksFailing) else s

/-- The standing of the service an operation names, after it. -/
def RunOp.leaves (op : RunOp) (s : Standing) : Standing :=
  match op with
  | .beginRestart .. => (.starting, none)
  | .markReady .. => (.ready, none)
  | .markFailed _ _ reason => (.failed, some reason)
  | .transition _ _ change => transitionStanding change s
  | _ => s

/-- The service an operation names. -/
def RunOp.service : RunOp → Option String
  | .beginRestart service _ | .restarted service _ | .markReady service _ _
  | .markFailed service _ _ | .transition service _ _
  | .compareHash service _ | .syncWatcher service | .keepWatcher service _
  | .syncCapture service | .keepCapture service _ | .applyPrepared service _ => some service
  | _ => none

/-- The standing of every service after an operation. -/
def RunOp.standingAfter (run : RunRecord) (service : String) : RunOp → Option Standing
  | .store name record =>
      if service = name then some (standing record) else standingIn run service
  | .removeMissing removed => if service ∈ removed then none else standingIn run service
  | .stopAll _ => (standingIn run service).map (fun s => (.stopped, s.2))
  | .reconcile status =>
      match standingIn run service, status.services[service]? with
      | some _, some written => some (written.state, written.lastFailure)
      | s, _ => s
  | op =>
      match op.service with
      | some name =>
          if service = name then (standingIn run service).map op.leaves
          else standingIn run service
      | none => standingIn run service

section Standing

variable (run : RunRecord) (service : String)

theorem standingIn_updateAndRecompute (name : String)
    {f : ServiceRecord → ServiceRecord × Option DaemonEvent} (g : Standing → Standing)
    (hf : ∀ record, standing (f record).1 = g (standing record)) :
    standingIn (updateAndRecompute run name f).1 service
      = if service = name then (standingIn run service).map g else standingIn run service := by
  rw [standingIn, updateAndRecompute_services, standingIn]
  by_cases h : service = name
  · rw [if_pos h, if_pos h, Option.map_map, Option.map_map]
    exact congrArg (fun k => Option.map k _) (funext hf)
  · rw [if_neg h, if_neg h]

theorem standingIn_updateService {f : ServiceRecord → ServiceRecord × List HandleId}
    (hf : ∀ record, (f record).1.runtime.state = record.runtime.state
      ∧ (f record).1.runtime.lastFailure = record.runtime.lastFailure) (name : String) :
    standingIn (updateService run name f).1 service = standingIn run service := by
  rw [standingIn, updateService_services, standingIn]
  by_cases h : service = name
  · rw [if_pos h, Option.map_map]
    refine congrArg (fun k => Option.map k _) (funext fun record => ?_)
    exact Prod.ext (hf record).1 (hf record).2
  · rw [if_neg h]

/-- A change of every record that keeps their standings. -/
theorem standingIn_map {f : String → ServiceRecord → ServiceRecord}
    (hf : ∀ name record, standing (f name record) = standing record) :
    standingIn { run with services := run.services.map f } service = standingIn run service := by
  show ((run.services.map f)[service]?).map standing = _
  rw [Std.ExtTreeMap.getElem?_map, Option.map_map, standingIn]
  exact congrArg (fun k => Option.map k _) (funext (hf service))

theorem beginRestartRecord_standing (runId name now : String) (record : ServiceRecord) :
    standing (beginRestartRecord runId name now record).1 = (.starting, none) := by
  simp [standing, beginRestartRecord]

theorem readyRecord_standing (runId name now : String) (fresh : HandleId)
    (record : ServiceRecord) :
    standing (readyRecord runId name now fresh record).1 = (.ready, none) := by
  simp only [standing, readyRecord]
  split <;> simp

theorem failedRecord_standing (runId name now reason : String) (record : ServiceRecord) :
    standing (failedRecord runId name now reason record).1 = (.failed, some reason) := by
  simp [standing, failedRecord]

theorem recoveredRecord_standing (runId name now : String) (record : ServiceRecord) :
    standing (recoveredRecord runId name now record).1
      = transitionStanding .recoverToReady (standing record) := by
  rw [recoveredRecord]
  by_cases h : record.runtime.state = .degraded
      ∧ record.runtime.lastFailure = some healthChecksFailing
  · have hleaves : transitionStanding .recoverToReady (standing record) = (.ready, none) :=
      if_pos h
    rw [if_pos h, hleaves]
    simp [standing]
  · have hleaves : transitionStanding .recoverToReady (standing record) = standing record :=
      if_neg h
    rw [if_neg h, hleaves]

theorem degradedRecord_standing (runId name now : String) (record : ServiceRecord) :
    standing (degradedRecord runId name now record).1
      = transitionStanding .markDegraded (standing record) := by
  rw [degradedRecord]
  by_cases h : record.runtime.state = .ready
  · have hleaves : transitionStanding .markDegraded (standing record)
        = (.degraded, some healthChecksFailing) := if_pos h
    rw [if_pos h, hleaves]
    simp [standing]
  · have hleaves : transitionStanding .markDegraded (standing record) = standing record :=
      if_neg h
    rw [if_neg h, hleaves]

theorem pausedRecord_standing (value : Bool) (record : ServiceRecord) :
    standing (pausedRecord value record) = standing record := by
  rw [pausedRecord]; split <;> rfl

theorem compareHashRecord_runtime (hash : String) (record : ServiceRecord) :
    (compareHashRecord hash record).runtime = record.runtime := by
  rw [compareHashRecord]; split <;> rfl

@[simp] theorem standingIn_recompute :
    standingIn (recomputeRunState run).1 service = standingIn run service := by
  rw [standingIn, recomputeRunState_services, standingIn]

theorem standingIn_stopAll (now : String) :
    standingIn (stopAllServices now run) service
      = (standingIn run service).map (fun s => (.stopped, s.2)) := by
  show ((run.services.map _)[service]?).map standing = _
  rw [Std.ExtTreeMap.getElem?_map, Option.map_map, standingIn, Option.map_map]
  refine congrArg (fun k => Option.map k _) (funext fun record => ?_)
  simp [standing]

theorem standingIn_reconcile (status : RunStatus) :
    standingIn (DevstackStatus.reconcile status run) service
      = (RunOp.reconcile status).standingAfter run service := by
  simp only [standingIn, DevstackStatus.reconcile, Std.ExtTreeMap.getElem?_map,
    RunOp.standingAfter]
  cases run.services[service]? with
  | none => rfl
  | some record =>
      cases status.services[service]? with
      | none => rfl
      | some written => rfl

theorem standingIn_removeMissing (removed : List String) :
    standingIn (removeServicesMissingFromStack run removed).1 service
      = if service ∈ removed then none else standingIn run service := by
  rw [removeServicesMissingFromStack]
  by_cases hnil : removed = []
  · rw [if_pos hnil, hnil]; rfl
  · rw [if_neg hnil, standingIn_recompute, standingIn, standingIn]
    by_cases hmem : service ∈ removed
    · rw [if_pos hmem]
      cases hget : run.services[service]? with
      | none => simp [hget]
      | some record => simp [Std.ExtTreeMap.getElem?_filter, hget, hmem]
    · rw [if_neg hmem]
      cases hget : run.services[service]? with
      | none => simp [hget]
      | some record => simp [Std.ExtTreeMap.getElem?_filter, hget, hmem]

/-- **WHAT A LOCKED STEP LEAVES**: the standing of every service after it. -/
theorem RunOp.standing_apply (op : RunOp) :
    standingIn (op.apply run).1 service = op.standingAfter run service := by
  have hplain : ∀ (name : String) {f : ServiceRecord → ServiceRecord × List HandleId},
      (∀ record, (f record).1.runtime.state = record.runtime.state
        ∧ (f record).1.runtime.lastFailure = record.runtime.lastFailure) →
      standingIn (updateService run name f).1 service = standingIn run service :=
    fun name _ hf => standingIn_updateService run service hf name
  -- an operation that names a service and leaves its standing
  have hsame : ∀ name : String, standingIn run service
      = if service = name then (standingIn run service).map (fun s => s)
        else standingIn run service := by
    intro name
    rw [Option.map_id']
    exact (ite_self _).symm
  cases op with
  | beginRestart name now =>
      exact standingIn_updateAndRecompute run service name (fun _ => (.starting, none))
        (beginRestartRecord_standing run.runId name now)
  | restarted name now => exact (hplain name (fun _ => ⟨rfl, rfl⟩)).trans (hsame name)
  | markReady name now fresh =>
      exact standingIn_updateAndRecompute run service name (fun _ => (.ready, none))
        (readyRecord_standing run.runId name now fresh)
  | markFailed name now reason =>
      exact standingIn_updateAndRecompute run service name (fun _ => (.failed, some reason))
        (failedRecord_standing run.runId name now reason)
  | transition name now change =>
      cases change with
      | healthy => exact hsame name
      | recoverToReady =>
          exact standingIn_updateAndRecompute run service name _
            (recoveredRecord_standing run.runId name now)
      | markDegraded =>
          exact standingIn_updateAndRecompute run service name _
            (degradedRecord_standing run.runId name now)
  | compareHash name hash =>
      refine (hplain name fun record => ?_).trans (hsame name)
      simp [plainly, compareHashRecord_runtime]
  | syncWatcher name => exact (hplain name (by simp)).trans (hsame name)
  | keepWatcher name fresh => exact (hplain name (by simp)).trans (hsame name)
  | syncCapture name => exact (hplain name (by simp)).trans (hsame name)
  | keepCapture name fresh => exact (hplain name (by simp)).trans (hsame name)
  | setWatchPaused name value =>
      cases name with
      | none => exact standingIn_map run service (fun _ => pausedRecord_standing value)
      | some name =>
          refine hplain name fun record => ?_
          exact Prod.mk.inj (pausedRecord_standing value record)
  | applyPrepared name prepared => exact (hplain name (by simp)).trans (hsame name)
  | store name record =>
      show ((replaceServiceRecord run name record).1.services[service]?).map standing = _
      rw [replaceServiceRecord_services]
      simp only [RunOp.standingAfter]
      split <;> rfl
  | removeMissing removed => exact standingIn_removeMissing run service removed
  | updateResources baseEnv =>
      show ((updateRunLaunchResources run baseEnv).services[service]?).map standing = _
      rw [updateRunLaunchResources_services]
      rfl
  | recompute => exact standingIn_recompute run service
  | stopHandles => exact standingIn_map run service (fun _ _ => rfl)
  | stopAll now => exact standingIn_stopAll run service now
  | reconcile status => exact standingIn_reconcile run service status

end Standing

end DevstackLocked
