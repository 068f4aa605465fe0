import Devstack.Lib.Machine
import Devstack.Readiness
import Devstack.Stores
import Mathlib.Algebra.GroupWithZero.Nat

/-! # Health — readiness results and the health monitor

    The locked updates of `src/app/launch/readiness.rs`: what a readiness
    result writes, and what one turn of `start_health_monitor` writes.  They all
    have one shape, `updateAndRecompute`: change one service's record, then
    recompute the run state.

    The monitor counts with the one-shot evaluator what the waiting evaluator
    accepted, so its first property is an agreement of the two:
    `readiness_evaluators_agree_iff`. -/

namespace DevstackHealth

open DevstackModel DevstackStores DevstackReadiness DevstackMachine

/-! ## The shape of the locked updates -/

/-- Change the record of `service`, if the run has it, and recompute the run
    state; the events are the record's, then the run's. -/
def updateAndRecompute (run : RunRecord) (service : String)
    (f : ServiceRecord → ServiceRecord × Option DaemonEvent) : RunRecord × List DaemonEvent :=
  match run.services[service]? with
  | some record =>
      let updated := f record
      let recomputed :=
        recomputeRunState { run with services := run.services.insert service updated.1 }
      (recomputed.1, updated.2.toList ++ recomputed.2.toList)
  | none =>
      let recomputed := recomputeRunState run
      (recomputed.1, recomputed.2.toList)

section UpdateAndRecompute

variable (run : RunRecord) (service : String)
variable (f : ServiceRecord → ServiceRecord × Option DaemonEvent)

/-- Only the named service changes. -/
theorem updateAndRecompute_services (name : String) :
    (updateAndRecompute run service f).1.services[name]?
      = if name = service then (run.services[name]?).map (fun record => (f record).1)
        else run.services[name]? := by
  rw [updateAndRecompute]
  cases hget : run.services[service]? with
  | none =>
      by_cases h : name = service
      · subst h; simp [hget]
      · simp [h]
  | some record =>
      by_cases h : name = service
      · subst h; simp [hget]
      · simp [Std.ExtTreeMap.getElem?_insert, h, Ne.symm h]

@[simp] theorem updateAndRecompute_state_stopped :
    (updateAndRecompute run service f).1.state = .stopped ↔ run.state = .stopped := by
  rw [updateAndRecompute]
  split <;> simp

@[simp] theorem updateAndRecompute_runId :
    (updateAndRecompute run service f).1.runId = run.runId := by
  rw [updateAndRecompute]
  split <;> simp

end UpdateAndRecompute

/-! ## Readiness results -/

/-- Whether `mark_service_ready` makes a health handle for this record. -/
def needsMonitor (record : ServiceRecord) : Bool :=
  record.handles.health.isNone && decide (record.spec.readiness.kind ≠ .exit)

/-- The record `mark_service_ready` writes; `fresh` is the handle it may make. -/
def readyRecord (runId service now : String) (fresh : HandleId) (record : ServiceRecord) :
    ServiceRecord × Option DaemonEvent :=
  let set := setServiceState runId service now record .ready
  let record := setLastFailure set.1 none
  if needsMonitor record then
    ({ record with handles := { record.handles with health := some fresh } }, set.2)
  else (record, set.2)

/-- `mark_service_ready` under the lock: the run, whether a monitor is started,
    and the events. -/
def markServiceReady (runId service now : String) (fresh : HandleId) (run : RunRecord) :
    RunRecord × Bool × List DaemonEvent :=
  let updated := updateAndRecompute run service (readyRecord runId service now fresh)
  let startMonitor :=
    match run.services[service]? with
    | some record => needsMonitor record
    | none => false
  (updated.1, startMonitor, updated.2)

/-- The record `mark_service_failed` writes. -/
def failedRecord (runId service now reason : String) (record : ServiceRecord) :
    ServiceRecord × Option DaemonEvent :=
  let set := setServiceState runId service now record .failed
  (setLastFailure set.1 (some reason), set.2)

/-- `mark_service_failed` under the lock. -/
def markServiceFailed (runId service now reason : String) (run : RunRecord) :
    RunRecord × List DaemonEvent :=
  updateAndRecompute run service (failedRecord runId service now reason)

/-! ## The monitor's turn -/

/-- `app::handles::HealthSnapshot`. -/
structure HealthSnapshot where
  passes : Nat
  failures : Nat
  consecutiveFailures : Nat
  lastCheckAt : Option String
  lastOk : Option Bool
  deriving DecidableEq

/-- The local variables of `start_health_monitor`, and the statistics it is the
    only writer of. -/
structure Monitor where
  readiness : ReadinessSpec
  context : ReadinessContext
  restartCount : Nat
  consecutiveFailures : Nat
  stats : HealthSnapshot

/-- The context a monitor takes from the record. -/
def monitorContext (record : ServiceRecord) : ReadinessContext where
  port := record.launch.listenPort
  scheme := record.launch.scheme
  logPath := record.launch.logPath
  cwd := record.launch.cwd
  env := record.launch.env
  unitName := some record.launch.unitName
  systemd := true

def Monitor.start (readiness : ReadinessSpec) (context : ReadinessContext) : Monitor where
  readiness := readiness
  context := context
  restartCount := 0
  consecutiveFailures := 0
  stats := ⟨0, 0, 0, none, none⟩

/-- `u32::saturating_add(1)`. -/
def saturatingSucc (n : Nat) : Nat := min (n + 1) (2 ^ 32 - 1)

/-- `check_ready_once(..).await.unwrap_or(false)`. -/
def Monitor.probe (engine : RegexEngine) (m : Monitor) (obs : Observation) : Bool :=
  match checkReadyOnce engine m.readiness m.context obs with
  | .ok ok => ok
  | .error _ => false

/-- The counters and the statistics after one probe. -/
def Monitor.count (m : Monitor) (ok : Bool) (checkedAt : String) : Monitor :=
  let consecutiveFailures := if ok then 0 else saturatingSucc m.consecutiveFailures
  { m with
    restartCount := if ok then 0 else m.restartCount
    consecutiveFailures := consecutiveFailures
    stats :=
      { passes := if ok then m.stats.passes + 1 else m.stats.passes
        failures := if ok then m.stats.failures else m.stats.failures + 1
        consecutiveFailures := consecutiveFailures
        lastCheckAt := some checkedAt
        lastOk := some ok } }

inductive Transition where
  | healthy | recoverToReady | markDegraded
  deriving DecidableEq, Repr

/-- The transition chosen after a probe that gave `ok`; `m` has counted it. -/
def Monitor.transition (m : Monitor) (ok : Bool) : Transition :=
  if ok = true ∧ m.consecutiveFailures = 0 then .recoverToReady
  else if 3 ≤ m.consecutiveFailures then .markDegraded
  else .healthy

def healthChecksFailing : String := "health checks failing"

/-- The record `RecoverToReady` writes. -/
def recoveredRecord (runId service now : String) (record : ServiceRecord) :
    ServiceRecord × Option DaemonEvent :=
  if record.runtime.state = .degraded
      ∧ record.runtime.lastFailure = some healthChecksFailing then
    let set := setServiceState runId service now record .ready
    (setLastFailure set.1 none, set.2)
  else (record, none)

/-- The record `MarkDegraded` writes. -/
def degradedRecord (runId service now : String) (record : ServiceRecord) :
    ServiceRecord × Option DaemonEvent :=
  if record.runtime.state = .ready then
    let set := setServiceState runId service now record .degraded
    (setLastFailure set.1 (some healthChecksFailing), set.2)
  else (record, none)

/-- The locked step of a turn. -/
def applyTransition (runId service now : String) (transition : Transition) (run : RunRecord) :
    RunRecord × List DaemonEvent :=
  match transition with
  | .healthy => (run, [])
  | .recoverToReady => updateAndRecompute run service (recoveredRecord runId service now)
  | .markDegraded => updateAndRecompute run service (degradedRecord runId service now)

/-- `should_restart`. -/
def shouldRestart (transition : Transition) (events : List DaemonEvent) (restartCount : Nat) :
    Bool :=
  match transition with
  | .markDegraded => !events.isEmpty && decide (restartCount < 3)
  | _ => false

def healthRestartLimitExceeded : String := "health restart limit exceeded"

/-! ## The monitor against a constant environment -/

/-- One turn of the monitor: the tick of its probe, its clock readings, and the
    run it finds under the lock (whatever the other tasks made of it). -/
structure Turn where
  tick : Nat
  checkedAt : String
  now : String
  run : RunRecord

section Agreement

variable (engine : RegexEngine) (tl : Timeline) (runId service : String)

/-- The monitor's variables after a turn. -/
def monitorStep (m : Monitor) (t : Turn) : Monitor :=
  m.count (m.probe engine (tl.obs t.tick)) t.checkedAt

/-- The transition a turn makes. -/
def turnTransition (m : Monitor) (t : Turn) : Transition :=
  (monitorStep engine tl m t).transition (m.probe engine (tl.obs t.tick))

/-- The run and the events a turn leaves. -/
def turnEffect (m : Monitor) (t : Turn) : RunRecord × List DaemonEvent :=
  applyTransition runId service t.now (turnTransition engine tl m t) t.run

/-- A turn that counts no failure, asks for no restart and moves no service of
    the run to a state other than `Ready`. -/
structure HarmlessTurn (m : Monitor) (t : Turn) : Prop where
  failures : (monitorStep engine tl m t).stats.failures = m.stats.failures
  consecutive : (monitorStep engine tl m t).consecutiveFailures = 0
  noRestart : shouldRestart (turnTransition engine tl m t)
    (turnEffect engine tl runId service m t).2 (monitorStep engine tl m t).restartCount = false
  states : ∀ (name : String) (record' : ServiceRecord),
    (turnEffect engine tl runId service m t).1.services[name]? = some record' →
      ∃ record : ServiceRecord, t.run.services[name]? = some record ∧
        (record'.runtime.state = record.runtime.state ∨ record'.runtime.state = .ready)

variable {engine tl}

/-- The recovered record is the old one, or a ready one. -/
theorem recoveredRecord_state (now : String) (record : ServiceRecord) :
    (recoveredRecord runId service now record).1.runtime.state = record.runtime.state
      ∨ (recoveredRecord runId service now record).1.runtime.state = .ready := by
  rw [recoveredRecord]
  split
  · exact Or.inr (by simp)
  · exact Or.inl rfl

/-- A turn whose probe succeeds is harmless. -/
theorem harmlessTurn_of_probe {m : Monitor} {t : Turn}
    (hprobe : m.probe engine (tl.obs t.tick) = true) :
    HarmlessTurn engine tl runId service m t := by
  have htr : turnTransition engine tl m t = .recoverToReady := by
    simp [turnTransition, monitorStep, hprobe, Monitor.count, Monitor.transition]
  refine ⟨?_, ?_, ?_, ?_⟩
  · simp [monitorStep, hprobe, Monitor.count]
  · simp [monitorStep, hprobe, Monitor.count]
  · rw [htr]; rfl
  · intro name record' hget
    rw [turnEffect, htr, applyTransition, updateAndRecompute_services] at hget
    by_cases hname : name = service
    · rw [if_pos hname, Option.map_eq_some_iff] at hget
      obtain ⟨record, hrec, heq⟩ := hget
      refine ⟨record, hrec, ?_⟩
      rw [← heq]
      exact recoveredRecord_state runId service t.now record
    · rw [if_neg hname] at hget
      exact ⟨record', hget, Or.inl rfl⟩

@[simp] theorem count_readiness (m : Monitor) (ok : Bool) (checkedAt : String) :
    (m.count ok checkedAt).readiness = m.readiness := rfl

@[simp] theorem count_context (m : Monitor) (ok : Bool) (checkedAt : String) :
    (m.count ok checkedAt).context = m.context := rfl

/-- A monitor whose probes all succeed makes harmless turns only. -/
theorem monitor_harmless {spec : ReadinessSpec} {ctx : ReadinessContext} {k : Nat}
    (hready : ∀ j, k ≤ j → checkReadyOnce engine spec ctx (tl.obs j) = .ok true) :
    ∀ (turns : List Turn) (m : Monitor), m.readiness = spec → m.context = ctx →
      (∀ t ∈ turns, k ≤ t.tick) →
        Along (monitorStep engine tl) (HarmlessTurn engine tl runId service) m turns := by
  intro turns
  induction turns with
  | nil => intro m _ _ _; trivial
  | cons t turns ih =>
      intro m hspec hctx hticks
      have hprobe : m.probe engine (tl.obs t.tick) = true := by
        have htick : k ≤ t.tick := hticks t (by simp)
        simp only [Monitor.probe, hspec, hctx, hready t.tick htick]
      refine ⟨harmlessTurn_of_probe runId service hprobe, ?_⟩
      exact ih _ hspec hctx (fun t' ht' => hticks t' (by simp [ht']))

/-- **THE EVALUATORS AGREE EXACTLY OFF `Delay`**: after a wait that returned
    `Ok` in an environment that stays constant, every later one-shot check
    returns `Ok(true)` and the monitor only makes harmless turns if and only if
    the readiness kind is not `Delay`. -/
theorem readiness_evaluators_agree_iff (spec : ReadinessSpec) (ctx : ReadinessContext)
    (fuel k : Nat) (hexit : spec.kind ≠ .exit)
    (hok : waitForReady engine spec ctx tl fuel = some (.ok k)) (hconst : ConstantFrom tl k) :
    ((∀ j, k ≤ j → checkReadyOnce engine spec ctx (tl.obs j) = .ok true)
      ∧ ∀ turns : List Turn, (∀ t ∈ turns, k ≤ t.tick) →
          Along (monitorStep engine tl) (HarmlessTurn engine tl runId service)
            (Monitor.start spec ctx) turns)
      ↔ ∀ duration, spec.kind ≠ .delay duration := by
  constructor
  · rintro ⟨hready, _⟩ duration hkind
    have htrue := hready k (Nat.le_refl k)
    rw [checkReadyOnce_delay hkind] at htrue
    exact nomatch htrue
  · intro hdelay
    have hready : ∀ j, k ≤ j → checkReadyOnce engine spec ctx (tl.obs j) = .ok true := by
      intro j hj
      rw [hconst j hj]
      exact waitForReady_ok hexit hdelay hok
    exact ⟨hready, fun turns hticks =>
      monitor_harmless runId service hready turns _ rfl rfl hticks⟩

/-- Port 3000 listens and the unit is active. -/
def listening : Timeline where
  obs _ :=
    { connects := (· == 3000)
      httpGet := fun _ => .ok 200
      file := fun _ => .missing
      runCommand := fun _ _ _ => .ok true
      unitStatus := fun _ => .ok (some ⟨"active", "running", none⟩) }
  clock n := n

def listeningContext : ReadinessContext where
  port := some 3000
  scheme := "http"
  logPath := "/run/logs/web.log"
  cwd := "/app"
  env := ∅
  unitName := some "devstack-run-r1-web.service"
  systemd := true

theorem readiness_evaluators_agree_iff_tcp :
    (((∀ j, 2 ≤ j → checkReadyOnce ⟨fun _ => .error "unused"⟩ ⟨.tcp, 30000⟩ listeningContext
          (listening.obs j) = .ok true)
      ∧ ∀ turns : List Turn, (∀ t ∈ turns, 2 ≤ t.tick) →
          Along (monitorStep ⟨fun _ => .error "unused"⟩ listening)
            (HarmlessTurn ⟨fun _ => .error "unused"⟩ listening "r1" "web")
            (Monitor.start ⟨.tcp, 30000⟩ listeningContext) turns)
      ↔ ∀ duration, ReadinessKind.tcp ≠ .delay duration) :=
  readiness_evaluators_agree_iff "r1" "web" ⟨.tcp, 30000⟩ listeningContext 1 2 (by decide) rfl
    (fun _ _ => rfl)

/-- A one-second delay is waited out, and every check after it says "not ready":
    the first turn of the monitor already counts a failure. -/
theorem delay_evaluators_disagree :
    waitForReady ⟨fun _ => .error "unused"⟩ ⟨.delay 1000, 30000⟩ listeningContext listening 1
        = some (.ok 0)
      ∧ ConstantFrom listening 0
      ∧ (∀ j, checkReadyOnce ⟨fun _ => .error "unused"⟩ ⟨.delay 1000, 30000⟩ listeningContext
          (listening.obs j) ≠ .ok true)
      ∧ ∀ t : Turn, (monitorStep ⟨fun _ => .error "unused"⟩ listening
          (Monitor.start ⟨.delay 1000, 30000⟩ listeningContext) t).stats.failures = 1 :=
  ⟨rfl, fun _ _ => rfl, fun _ h => (nomatch h), fun _ => rfl⟩

end Agreement

end DevstackHealth
