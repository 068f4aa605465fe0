import Devstack.Daemon.StoppedHandles

/-! # The restart policy — a monitor, its restarts and their readiness tasks

    A monitor restarts its service at most three times without a successful check
    between, and after the third restart sets it to `Failed`.  Every restart spawns
    a readiness task and returns before it; the monitor does not wait for the last
    one before it sets the service to `Failed`.

    The daemon is watched from the start of one monitor: its tasks and those its
    restarts spawn take steps, everything else changes the world around the
    service's record.  `restarts` counts the restarts since the last successful
    check, `tripped` says that the limit was reached. -/

namespace DevstackRestartPolicy

open DevstackModel DevstackStores DevstackReadiness DevstackHealth DevstackConfig DevstackLaunch
open DevstackStatus DevstackLocked DevstackWorld DevstackTasks DevstackSystem DevstackSuccessors
open DevstackInterleaving DevstackMachine DevstackStoppedHandles

-- ── the watched monitor ───────────────────────────────────────────────────────

/-- The record of a service. -/
def recordOf (runId service : String) (w : World) : Option ServiceRecord :=
  (w.runs[runId]?).bind (fun r => r.services[service]?)

structure Watched where
  sys : Sys
  restarts : Nat
  tripped : Bool

inductive Move where
  | step (position : Nat) (env : Env)
  | others (world : World)

/-- The restarts since the last successful check, after a task's step. -/
def restartsAfter (env : Env) (restarts : Nat) : Task → Nat
  | .monitorProbe m => if m.monitor.probe env.engine env.obs then 0 else restarts
  | .restart _ _ _ (.monitor _) => restarts + 1
  | _ => restarts

/-- Whether a task is about to set the service to `Failed` for good. -/
def trips : Task → Bool
  | .monitorLimit _ => true
  | _ => false

/-- A step of the monitor's tasks; or of the others, which leave the service's record. -/
def policyStep (runId service : String) (s : Watched) : Move → Watched
  | .step position env =>
      match s.sys.2[position]? with
      | some t =>
          ⟨stepAt Task.step s.sys (position, env), restartsAfter env s.restarts t,
            s.tripped || trips t⟩
      | none => s
  | .others world =>
      if recordOf runId service world = recordOf runId service s.sys.1 then
        { s with sys := (world, s.sys.2) }
      else s

/-- A monitor that was just spawned. -/
def spawnedMonitor (runId service : String) (w : World) : Watched where
  sys := (w, [.monitorInit runId service])
  restarts := 0
  tripped := false

/-- At most three restarts since the last successful check; a service over the limit is
    `Failed` for it. -/
def Policy (runId service : String) (s : Watched) : Prop :=
  s.restarts ≤ 3 ∧ (s.tripped = true → ∀ found,
    s.sys.1.standing (.service runId service) = some found →
      found = (.failed, some healthRestartLimitExceeded))

def awaits : Task → Bool
  | .waitReadiness .. => true
  | _ => false

/-- The limit is only reached when no restart is waiting for its service. -/
def LimitAlone (s : Watched) : Move → Prop
  | .step position _ => ∀ m, s.sys.2[position]? = some (.monitorLimit m) →
      ∀ t ∈ s.sys.2, awaits t = false
  | .others _ => True

-- ── the tasks ─────────────────────────────────────────────────────────────────

section Tasks

variable (runId service : String)

/-- The monitor's own task in its loop, `c` restarts after its last success. -/
inductive Main (c : Nat) : Task → Prop where
  | top {handle : HandleId} {monitor : Monitor} (hc : monitor.restartCount = c) (hlt : c < 3) :
      Main c (.monitorTop ⟨runId, service, handle, monitor⟩)
  | slept {handle : HandleId} {monitor : Monitor} (hc : monitor.restartCount = c) (hlt : c < 3) :
      Main c (.monitorSlept ⟨runId, service, handle, monitor⟩)
  | probe {handle : HandleId} {monitor : Monitor} (hc : monitor.restartCount = c) (hlt : c < 3) :
      Main c (.monitorProbe ⟨runId, service, handle, monitor⟩)
  | persistTurn {handle : HandleId} {monitor : Monitor} {restart : Bool}
      (hc : monitor.restartCount = if restart then c + 1 else c) (hlt : c < 3) :
      Main c (.persist runId (.monitorTurn ⟨runId, service, handle, monitor⟩ restart))
  | writeTurn {handle : HandleId} {monitor : Monitor} {restart : Bool} (manifest : PersistedRun)
      (hc : monitor.restartCount = if restart then c + 1 else c) (hlt : c < 3) :
      Main c (.write manifest (.monitorTurn ⟨runId, service, handle, monitor⟩ restart))
  | restart {handle : HandleId} {monitor : Monitor} (hc : monitor.restartCount = c + 1)
      (hlt : c < 3) :
      Main c (.restart runId service true (.monitor ⟨runId, service, handle, monitor⟩))
  | loadPostInit {handle : HandleId} {monitor : Monitor} (launch : Nat) (unitName : String)
      (hc : monitor.restartCount = c) (hle : c ≤ 3) :
      Main c (.loadPostInit ⟨runId, service, true, launch, unitName,
        .monitor ⟨runId, service, handle, monitor⟩⟩)
  | restartUnit {handle : HandleId} {monitor : Monitor} (launch : Nat) (unitName : String)
      (hc : monitor.restartCount = c) (hle : c ≤ 3) :
      Main c (.restartUnit ⟨runId, service, true, launch, unitName,
        .monitor ⟨runId, service, handle, monitor⟩⟩)
  | restarted {handle : HandleId} {monitor : Monitor} (launch : Nat) (unitName : String)
      (hc : monitor.restartCount = c) (hle : c ≤ 3) :
      Main c (.restarted ⟨runId, service, true, launch, unitName,
        .monitor ⟨runId, service, handle, monitor⟩⟩)
  | persistRestarted {handle : HandleId} {monitor : Monitor} (hc : monitor.restartCount = c)
      (hle : c ≤ 3) :
      Main c (.persist runId (.restarted (.monitor ⟨runId, service, handle, monitor⟩)))
  | writeRestarted {handle : HandleId} {monitor : Monitor} (manifest : PersistedRun)
      (hc : monitor.restartCount = c) (hle : c ≤ 3) :
      Main c (.write manifest (.restarted (.monitor ⟨runId, service, handle, monitor⟩)))
  | limit {handle : HandleId} {monitor : Monitor} (hle : c ≤ 3) :
      Main c (.monitorLimit ⟨runId, service, handle, monitor⟩)

/-- The readiness tasks its restarts spawn, and the manifests written at the end. -/
inductive Side : Task → Prop where
  | waitReadiness (launch : Nat) : Side (.waitReadiness runId service launch)
  | persist : Side (.persist runId .finish)
  | write (manifest : PersistedRun) : Side (.write manifest .finish)

variable {runId service}

/-- What the monitor does when a restart of it has returned. -/
theorem main_caller {c : Nat} {handle : HandleId} {monitor : Monitor} {t' : Task}
    (hc : monitor.restartCount = c) (hle : c ≤ 3)
    (h : t' ∈ (Caller.monitor ⟨runId, service, handle, monitor⟩).resume) :
    Main runId service c t' := by
  rw [Caller.resume] at h
  split at h
  · rw [List.mem_singleton.mp h]
    exact .limit hle
  · next hlimit =>
      rw [List.mem_singleton.mp h]
      exact .top hc (hc ▸ Nat.lt_of_not_le hlimit)

/-- What it does after a turn. -/
theorem main_turn {c : Nat} {handle : HandleId} {monitor : Monitor} {restart : Bool} {t' : Task}
    (hc : monitor.restartCount = if restart then c + 1 else c) (hlt : c < 3)
    (h : t' ∈ (Cont.monitorTurn ⟨runId, service, handle, monitor⟩ restart).resume (.ok ())) :
    Main runId service c t' := by
  cases restart with
  | true =>
      rw [List.mem_singleton.mp h]
      exact .restart hc hlt
  | false =>
      rw [List.mem_singleton.mp h]
      exact .top hc hlt

/-- The decision after a check, by its events. -/
theorem main_decision {c : Nat} {handle : HandleId} {counted : Monitor} {change : Transition}
    {events : List DaemonEvent} (hcount : counted.restartCount = c) (hlt : c < 3) {t' : Task}
    (h : t' ∈ if events = [] then
        [Task.monitorTop ⟨runId, service, handle,
          if shouldRestart change events counted.restartCount then
            { counted with restartCount := counted.restartCount + 1 }
          else counted⟩]
      else
        [Task.persist runId (.monitorTurn ⟨runId, service, handle,
          if shouldRestart change events counted.restartCount then
            { counted with restartCount := counted.restartCount + 1 }
          else counted⟩ (shouldRestart change events counted.restartCount))]) :
    Main runId service c t' := by
  split at h
  · next hevents =>
      subst hevents
      have hno : shouldRestart change [] counted.restartCount = false := by
        cases change <;> rfl
      rw [hno] at h
      rw [List.mem_singleton.mp h]
      exact .top hcount hlt
  · rw [List.mem_singleton.mp h]
    refine .persistTurn ?_ hlt
    split
    · show counted.restartCount + 1 = _
      rw [hcount]
    · exact hcount

/-- One check, its count and its decision. -/
theorem main_probe (env : Env) (w : World) {c : Nat} {handle : HandleId} {monitor : Monitor}
    (hc : monitor.restartCount = c) (hlt : c < 3) {t' : Task}
    (h : t' ∈ ((Task.monitorProbe ⟨runId, service, handle, monitor⟩).step env w).2) :
    Main runId service (if monitor.probe env.engine env.obs then 0 else c) t' := by
  have hcount : (monitor.count (monitor.probe env.engine env.obs) env.now).restartCount
      = if monitor.probe env.engine env.obs then 0 else c := by
    rw [← hc]
    rfl
  have hlt' : (if monitor.probe env.engine env.obs = true then 0 else c) < 3 := by
    split <;> omega
  exact main_decision hcount hlt' h

/-- **ONE STEP OF THE MONITOR**: it stays the monitor, with its restarts counted, beside
    what it spawned. -/
theorem main_step (env : Env) (w : World) {c : Nat} {t t' : Task} (h : Main runId service c t)
    (hmem : t' ∈ (t.step env w).2) :
    Side runId service t' ∨ Main runId service (restartsAfter env c t) t' := by
  cases h with
  | top hc hlt =>
      simp only [Task.step] at hmem
      split at hmem
      · cases hmem
      · rw [List.mem_singleton.mp hmem]
        exact Or.inr (.slept hc hlt)
  | slept hc hlt =>
      simp only [Task.step] at hmem
      split at hmem
      · cases hmem
      · rw [List.mem_singleton.mp hmem]
        exact Or.inr (.probe hc hlt)
  | probe hc hlt => exact Or.inr (main_probe env w hc hlt hmem)
  | persistTurn hc hlt =>
      simp only [Task.step] at hmem
      split at hmem
      · rw [List.mem_singleton.mp hmem]
        exact Or.inr (.writeTurn _ hc hlt)
      · exact Or.inr (main_turn hc hlt hmem)
  | writeTurn manifest hc hlt =>
      simp only [Task.step] at hmem
      split at hmem
      · exact Or.inr (main_turn hc hlt hmem)
      · exact Or.inr (main_turn hc hlt hmem)
  | restart hc hlt =>
      simp only [Task.step] at hmem
      split at hmem
      · exact Or.inr (main_caller hc hlt hmem)
      · split at hmem
        · exact Or.inr (main_caller hc hlt hmem)
        · rw [List.mem_singleton.mp hmem]
          exact Or.inr (.loadPostInit _ _ hc hlt)
  | loadPostInit launch unitName hc hle =>
      simp only [Task.step] at hmem
      split at hmem
      · exact Or.inr (main_caller hc hle hmem)
      · rw [List.mem_singleton.mp hmem]
        exact Or.inr (.restartUnit launch unitName hc hle)
  | restartUnit launch unitName hc hle =>
      simp only [Task.step] at hmem
      split at hmem
      · exact Or.inr (main_caller hc hle hmem)
      · rw [List.mem_singleton.mp hmem]
        exact Or.inr (.restarted launch unitName hc hle)
  | restarted launch unitName hc hle =>
      rcases List.mem_cons.mp hmem with rfl | hmem
      · exact Or.inr (.persistRestarted hc hle)
      · rw [List.mem_singleton.mp hmem]
        exact Or.inl (.waitReadiness launch)
  | persistRestarted hc hle =>
      simp only [Task.step] at hmem
      split at hmem
      · rw [List.mem_singleton.mp hmem]
        exact Or.inr (.writeRestarted _ hc hle)
      · exact Or.inr (main_caller hc hle hmem)
  | writeRestarted manifest hc hle =>
      simp only [Task.step] at hmem
      split at hmem
      · exact Or.inr (main_caller hc hle hmem)
      · exact Or.inr (main_caller hc hle hmem)
  | limit hle =>
      rw [List.mem_singleton.mp hmem]
      exact Or.inl .persist

-- ── the record ────────────────────────────────────────────────────────────────

/-- The service has a monitor's handle. -/
def Monitored (runId service : String) (w : World) : Prop :=
  ∀ record, recordOf runId service w = some record → record.handles.health.isSome = true

theorem Monitored.of_runs {w w' : World} (h : Monitored runId service w)
    (hruns : w'.runs = w.runs) : Monitored runId service w' := by
  intro record hrecord
  rw [recordOf, hruns] at hrecord
  exact h record hrecord

/-- Operations that leave a service its monitor's handle. -/
theorem monitored_lock {w : World} {op : RunOp} (h : Monitored runId service w)
    (hop : ∀ (r : RunRecord) (record' : ServiceRecord),
      (op.apply r).1.services[service]? = some record' →
        ∃ record, r.services[service]? = some record
          ∧ (record.handles.health.isSome = true → record'.handles.health.isSome = true)) :
    Monitored runId service (w.lock runId op) := by
  intro record' hrecord'
  rw [recordOf, World.lock] at hrecord'
  cases hrun : w.runs[runId]? with
  | none =>
      simp [hrun] at hrecord'
  | some r =>
      rw [hrun] at hrecord'
      simp only [Std.ExtTreeMap.getElem?_insert_self, Option.bind_some] at hrecord'
      obtain ⟨record, hrecord, hkeep⟩ := hop r record' hrecord'
      exact hkeep (h record (by rw [recordOf, hrun]; exact hrecord))

theorem health_updateAndRecompute {r : RunRecord} {record' : ServiceRecord}
    {f : ServiceRecord → ServiceRecord × Option DaemonEvent}
    (hf : ∀ record, record.handles.health.isSome = true →
      (f record).1.handles.health.isSome = true)
    (h : (updateAndRecompute r service f).1.services[service]? = some record') :
    ∃ record, r.services[service]? = some record
      ∧ (record.handles.health.isSome = true → record'.handles.health.isSome = true) := by
  rw [updateAndRecompute_services, if_pos rfl] at h
  obtain ⟨record, hrecord, rfl⟩ := Option.map_eq_some_iff.mp h
  exact ⟨record, hrecord, hf record⟩

theorem monitored_markReady {w : World} (h : Monitored runId service w) (now : String)
    (fresh : HandleId) : Monitored runId service (w.lock runId (.markReady service now fresh)) := by
  refine monitored_lock h fun r record' hrecord' => health_updateAndRecompute (fun record hsome => ?_)
    hrecord'
  rw [readyRecord]
  dsimp only
  split
  · rfl
  · simpa using hsome

theorem monitored_markFailed {w : World} (h : Monitored runId service w) (now reason : String) :
    Monitored runId service (w.lock runId (.markFailed service now reason)) :=
  monitored_lock h fun r record' hrecord' => health_updateAndRecompute
    (fun record hsome => by simpa [failedRecord] using hsome) hrecord'

theorem monitored_transition {w : World} (h : Monitored runId service w) (now : String)
    (change : Transition) :
    Monitored runId service (w.lock runId (.transition service now change)) := by
  refine monitored_lock h fun r record' hrecord' => ?_
  cases change with
  | healthy => exact ⟨record', hrecord', id⟩
  | recoverToReady =>
      refine health_updateAndRecompute (fun record hsome => ?_) hrecord'
      rw [recoveredRecord]
      split
      · simpa using hsome
      · exact hsome
  | markDegraded =>
      refine health_updateAndRecompute (fun record hsome => ?_) hrecord'
      rw [degradedRecord]
      split
      · simpa using hsome
      · exact hsome

theorem monitored_deliver {w : World} (h : Monitored runId service w) (now : String)
    (result : Except String Unit) : Monitored runId service (deliver w runId service now result).1 := by
  cases result with
  | error reason => exact monitored_markFailed h now reason
  | ok _ =>
      simp only [deliver, markReadyStep]
      split
      · split
        · exact (monitored_markReady h now w.nextHandle).of_runs rfl
        · exact monitored_markReady h now w.nextHandle
      · exact monitored_markReady h now w.nextHandle

/-- A monitored service gets no second monitor. -/
theorem deliver_spawns_none {w : World} (h : Monitored runId service w) (now : String)
    (result : Except String Unit) : (deliver w runId service now result).2 = [] := by
  cases result with
  | error reason => rfl
  | ok _ =>
      simp only [deliver, markReadyStep]
      split
      · next record hrecord =>
          have hsome := h record hrecord
          have hneeds : needsMonitor record = false := by
            cases hhealth : record.handles.health with
            | none =>
                rw [hhealth] at hsome
                cases hsome
            | some handle => simp [needsMonitor, hhealth]
          rw [hneeds]
          rfl
      · rfl

theorem side_step (env : Env) {w : World} (hmonitored : Monitored runId service w) {t t' : Task}
    (h : Side runId service t) (hmem : t' ∈ (t.step env w).2) : Side runId service t' := by
  cases h with
  | waitReadiness launch =>
      simp only [Task.step, deliver_spawns_none hmonitored] at hmem
      rw [List.mem_singleton.mp hmem]
      exact .persist
  | persist =>
      simp only [Task.step] at hmem
      split at hmem
      · rw [List.mem_singleton.mp hmem]
        exact .write _
      · cases hmem
  | write manifest =>
      simp only [Task.step] at hmem
      split at hmem
      · cases hmem
      · cases hmem

theorem monitored_side (env : Env) {w : World} (hmonitored : Monitored runId service w) {t : Task}
    (h : Side runId service t) : Monitored runId service (t.step env w).1 := by
  cases h with
  | waitReadiness launch => exact monitored_deliver hmonitored env.now env.readiness
  | persist =>
      simp only [Task.step]
      split <;> exact hmonitored
  | write manifest =>
      simp only [Task.step]
      split
      · exact hmonitored
      · exact hmonitored.of_runs rfl

theorem monitored_main (env : Env) {w : World} (hmonitored : Monitored runId service w) {c : Nat}
    {t : Task} (h : Main runId service c t) : Monitored runId service (t.step env w).1 := by
  cases h with
  | probe hc hlt => exact monitored_transition hmonitored _ _
  | limit hle => exact monitored_markFailed hmonitored _ _
  | restart hc hlt =>
      simp only [Task.step]
      split
      · exact hmonitored
      · split
        · exact hmonitored
        · refine (monitored_lock hmonitored fun r record' hrecord' => ?_).of_runs rfl
          have hupdate : (updateAndRecompute r service
              (beginRestartRecord r.runId service env.now)).1.services[service]?
              = some record' := hrecord'
          refine health_updateAndRecompute (fun record hsome => ?_) hupdate
          simpa [beginRestartRecord] using hsome
  | restarted launch unitName hc hle =>
      refine monitored_lock hmonitored fun r record' hrecord' => ?_
      have hupdate : (updateService r service (plainly (restartedRecord env.now))).1.services[service]?
          = some record' := hrecord'
      rw [updateService_services, if_pos rfl] at hupdate
      obtain ⟨record, hrecord, rfl⟩ := Option.map_eq_some_iff.mp hupdate
      exact ⟨record, hrecord, id⟩
  | restartUnit launch unitName hc hle =>
      simp only [Task.step]
      exact hmonitored.of_runs rfl
  | top hc hlt | slept hc hlt | persistTurn hc hlt | persistRestarted hc hle
  | loadPostInit launch unitName hc hle =>
      simp only [Task.step]
      split <;> exact hmonitored
  | writeTurn manifest hc hlt | writeRestarted manifest hc hle =>
      simp only [Task.step]
      split
      · exact hmonitored
      · exact hmonitored.of_runs rfl

-- ── one monitor ───────────────────────────────────────────────────────────────

/-- The monitor's own task, as against those it spawned. -/
def ownTurn : Task → Option Unit
  | .waitReadiness .. | .persist _ .finish | .write _ .finish => none
  | _ => some ()

theorem Main.ownTurn {c : Nat} {t : Task} (h : Main runId service c t) :
    DevstackRestartPolicy.ownTurn t = some () := by
  cases h <;> rfl

theorem Side.ownTurn {t : Task} (h : Side runId service t) :
    DevstackRestartPolicy.ownTurn t = none := by
  cases h <;> rfl

theorem Main.not_spawned {c : Nat} {t : Task} (h : Main runId service c t) : spawned t = false := by
  cases h <;> rfl

/-- The monitor in its loop, beside the readiness tasks of its restarts. -/
structure Running (runId service : String) (s : Watched) : Prop where
  monitored : s.sys.2 ≠ [] → Monitored runId service s.sys.1
  tasks : ∀ t ∈ s.sys.2, Side runId service t ∨ Main runId service s.restarts t
  single : (s.sys.2.filterMap ownTurn).Nodup
  atMost : s.restarts ≤ 3

theorem restartsAfter_side (env : Env) (c : Nat) {t : Task} (h : Side runId service t) :
    restartsAfter env c t = c := by
  cases h <;> rfl

theorem restartsAfter_le (env : Env) {c : Nat} {t : Task} (h : Main runId service c t) :
    restartsAfter env c t ≤ 3 := by
  cases h with
  | probe hc hlt =>
      simp only [restartsAfter]
      split <;> omega
  | restart hc hlt => exact hlt
  | top hc hlt | slept hc hlt | persistTurn hc hlt | writeTurn manifest hc hlt =>
      exact Nat.le_of_lt hlt
  | loadPostInit launch unitName hc hle | restartUnit launch unitName hc hle
  | restarted launch unitName hc hle | persistRestarted hc hle | writeRestarted manifest hc hle
  | limit hle => exact hle

/-- **THE RESTARTS ARE COUNTED**: a step of the monitor or of a task it spawned. -/
theorem running_step {s : Watched} {position : Nat} {env : Env} {t : Task}
    (h : Running runId service s) (hget : s.sys.2[position]? = some t) :
    Running runId service (policyStep runId service s (.step position env)) := by
  have hstep : policyStep runId service s (.step position env)
      = ⟨stepAt Task.step s.sys (position, env), restartsAfter env s.restarts t,
          s.tripped || trips t⟩ := by
    simp only [policyStep, hget]
  have hworld : (stepAt Task.step s.sys (position, env)).1 = (t.step env s.sys.1).1 := by
    rw [stepAt_some Task.step hget]
  have ht := h.tasks t (List.mem_of_getElem? hget)
  have hmonitored := h.monitored (List.ne_nil_of_mem (List.mem_of_getElem? hget))
  -- what the task becomes
  have hnext : ∀ t' ∈ (t.step env s.sys.1).2, Side runId service t'
      ∨ ownTurn t = some () ∧ Main runId service (restartsAfter env s.restarts t) t' := by
    intro t' hmem
    rcases ht with hside | hmain
    · exact Or.inl (side_step env hmonitored hside hmem)
    · exact (main_step env s.sys.1 hmain hmem).imp_right (fun hmain' => ⟨hmain.ownTurn, hmain'⟩)
  -- the others: only one task is the monitor's own
  have hothers : ∀ t' ∈ s.sys.2.eraseIdx position, Side runId service t'
      ∨ Main runId service (restartsAfter env s.restarts t) t' := by
    intro t' ht'
    rcases h.tasks t' (List.mem_of_mem_eraseIdx ht') with hside | hmain'
    · exact Or.inl hside
    · rcases ht with hside | hmain
      · rw [restartsAfter_side env s.restarts hside]
        exact Or.inr hmain'
      · exact absurd hmain'.ownTurn (nodup_others hget h.single hmain.ownTurn t' ht')
  rw [hstep]
  refine ⟨?_, fun t' ht' => ?_, ?_, ?_⟩
  · intro _
    rw [hworld]
    rcases ht with hside | hmain
    · exact monitored_side env hmonitored hside
    · exact monitored_main env hmonitored hmain
  · rcases (mem_stepAt_iff Task.step hget).mp ht' with hmem | hmem
    · exact (hnext t' hmem).imp_right And.right
    · exact hothers t' hmem
  · refine nodup_stepAt Task.step ownTurn hget h.single (Or.inl ?_)
    have honward := onward_step env s.sys.1 t
    cases hnexts : (t.step env s.sys.1).2 with
    | nil => exact List.nil_sublist _
    | cons t' ts =>
        rw [hnexts] at honward
        have hts : ts.filterMap ownTurn = [] := by
          rw [List.filterMap_eq_nil_iff]
          intro t'' ht''
          rcases hnext t'' (hnexts ▸ List.mem_cons_of_mem _ ht'') with hside | ⟨-, hmain⟩
          · exact hside.ownTurn
          · exact absurd (honward t'' ht'') (by rw [hmain.not_spawned]; exact Bool.false_ne_true)
        rcases hnext t' (hnexts ▸ List.mem_cons_self ..) with hside | ⟨hown, hmain⟩
        · rw [List.filterMap_cons_none hside.ownTurn, hts]
          exact List.nil_sublist _
        · rw [List.filterMap_cons_some hmain.ownTurn, hts, hown]
          exact List.Sublist.refl _
  · rcases ht with hside | hmain
    · rw [restartsAfter_side env s.restarts hside]
      exact h.atMost
    · exact restartsAfter_le env hmain

-- ── the limit ─────────────────────────────────────────────────────────────────

theorem standing_recordOf (w : World) :
    w.standing (.service runId service)
      = (recordOf runId service w).map DevstackStatus.standing := by
  simp only [World.standing, recordOf, standingIn]
  cases w.runs[runId]? <;> rfl

/-- A service over the limit is `Failed` for it, and nothing is left that could change it. -/
def Ended (runId service : String) (s : Watched) : Prop :=
  s.tripped = true →
    (∀ t ∈ s.sys.2, Side runId service t ∧ awaits t = false)
      ∧ ∀ found, s.sys.1.standing (.service runId service) = some found →
          found = (.failed, some healthRestartLimitExceeded)

/-- A manifest that is written at the end changes no run. -/
theorem ended_side (env : Env) (w : World) {t : Task} (h : Side runId service t)
    (hawaits : awaits t = false) :
    (t.step env w).1.runs = w.runs
      ∧ ∀ t' ∈ (t.step env w).2, Side runId service t' ∧ awaits t' = false := by
  cases h with
  | waitReadiness launch => cases hawaits
  | persist =>
      simp only [Task.step]
      split
      · refine ⟨rfl, fun t' ht' => ?_⟩
        rw [List.mem_singleton.mp ht']
        exact ⟨.write _, rfl⟩
      · exact ⟨rfl, fun t' ht' => (by cases ht')⟩
  | write manifest =>
      simp only [Task.step]
      split
      · exact ⟨rfl, fun t' ht' => (by cases ht')⟩
      · exact ⟨rfl, fun t' ht' => (by cases ht')⟩

theorem ended_step {s : Watched} {position : Nat} {env : Env} {t : Task}
    (hrunning : Running runId service s) (h : Ended runId service s)
    (halone : LimitAlone s (.step position env)) (hget : s.sys.2[position]? = some t) :
    Ended runId service (policyStep runId service s (.step position env)) := by
  have hstep : policyStep runId service s (.step position env)
      = ⟨stepAt Task.step s.sys (position, env), restartsAfter env s.restarts t,
          s.tripped || trips t⟩ := by
    simp only [policyStep, hget]
  have hworld : (stepAt Task.step s.sys (position, env)).1 = (t.step env s.sys.1).1 := by
    rw [stepAt_some Task.step hget]
  have ht := List.mem_of_getElem? hget
  rw [hstep]
  intro htripped
  rcases Bool.or_eq_true_iff.mp htripped with hbefore | hnow
  · obtain ⟨htasks, hfound⟩ := h hbefore
    obtain ⟨hside, hawaits⟩ := htasks t ht
    obtain ⟨hruns, hnext⟩ := ended_side env s.sys.1 hside hawaits
    refine ⟨fun t' ht' => ?_, fun found hget' => hfound found ?_⟩
    · rcases (mem_stepAt_iff Task.step hget).mp ht' with hmem | hmem
      · exact hnext t' hmem
      · exact htasks t' (List.mem_of_mem_eraseIdx hmem)
    · rw [hworld, standing_recordOf, recordOf, hruns] at hget'
      rwa [standing_recordOf, recordOf]
  · rcases hrunning.tasks t ht with hside | hmain
    · cases hside <;> cases hnow
    · cases hmain with
      | @limit handle monitor hle =>
          refine ⟨fun t' ht' => ?_, fun found hget' => ?_⟩
          · rcases (mem_stepAt_iff Task.step hget).mp ht' with hmem | hmem
            · rw [List.mem_singleton.mp hmem]
              exact ⟨.persist, rfl⟩
            · have hmem' := List.mem_of_mem_eraseIdx hmem
              refine ⟨?_, halone _ hget t' hmem'⟩
              rcases hrunning.tasks t' hmem' with hside | hmain'
              · exact hside
              · exact absurd hmain'.ownTurn (nodup_others hget hrunning.single rfl t' hmem)
          · rw [hworld] at hget'
            have hlimit : ((s.sys.1.runs[runId]?).bind (fun r =>
                (RunOp.markFailed service env.now healthRestartLimitExceeded).standingAfter r service))
                = some found := by
              rw [← hget']
              simp only [Task.step, standing_lock, if_pos]
            obtain ⟨r, -, hstanding⟩ := Option.bind_eq_some_iff.mp hlimit
            simp only [RunOp.standingAfter, RunOp.service, if_pos] at hstanding
            obtain ⟨before, -, rfl⟩ := Option.map_eq_some_iff.mp hstanding
            rfl
      | _ => cases hnow

/-- What holds from the spawning of a monitor on. -/
def Watching (runId service : String) (s : Watched) : Prop :=
  (s.sys.2 = [.monitorInit runId service] ∧ s.restarts = 0 ∧ s.tripped = false)
    ∨ Running runId service s ∧ Ended runId service s

theorem watching_others {s : Watched} (world : World) (h : Watching runId service s) :
    Watching runId service (policyStep runId service s (.others world)) := by
  simp only [policyStep]
  split
  · next hrecord =>
      refine h.imp id (fun hrunning => ?_)
      obtain ⟨⟨hmonitored, htasks, hsingle, hatMost⟩, hended⟩ := hrunning
      refine ⟨⟨fun hne record hget => hmonitored hne record (hrecord ▸ hget), htasks, hsingle,
        hatMost⟩, fun htripped => ?_⟩
      obtain ⟨hsides, hfound⟩ := hended htripped
      refine ⟨hsides, fun found hget => hfound found ?_⟩
      rw [standing_recordOf] at hget ⊢
      rw [← hrecord]
      exact hget
  · exact h

/-- The monitor reads its service's record, and enters its loop or ends. -/
theorem watching_init {s : Watched} {position : Nat} {env : Env} {t : Task}
    (htasks : s.sys.2 = [.monitorInit runId service]) (hrestarts : s.restarts = 0)
    (htripped : s.tripped = false) (hget : s.sys.2[position]? = some t) :
    Watching runId service (policyStep runId service s (.step position env)) := by
  have hmem := List.mem_of_getElem? hget
  rw [htasks] at hmem
  cases List.mem_singleton.mp hmem
  have hposition : position = 0 := by
    rw [htasks] at hget
    obtain ⟨hlt, -⟩ := List.getElem?_eq_some_iff.mp hget
    simpa using hlt
  subst hposition
  have hstep : policyStep runId service s (.step 0 env)
      = ⟨(Task.monitorInit runId service).step env s.sys.1, 0, false⟩ := by
    have hsys : stepAt Task.step s.sys (0, env)
        = (Task.monitorInit runId service).step env s.sys.1 := by
      rw [stepAt_some Task.step (a := (0, env)) hget, htasks]
      simp
    simp only [policyStep, hget, hsys, hrestarts, htripped]
    rfl
  have hempty : Watching runId service ⟨(s.sys.1, []), 0, false⟩ := by
    refine Or.inr ⟨⟨fun hne => absurd rfl hne, fun t ht => (by cases ht), List.nodup_nil,
      Nat.zero_le 3⟩, fun h => by cases h⟩
  rw [hstep]
  simp only [Task.step]
  split
  · exact hempty
  · next record hrecord =>
      split
      · exact hempty
      · next handle hhandle =>
          refine Or.inr ⟨⟨fun _ record' hrecord' => ?_, fun t ht => ?_, ?_, Nat.zero_le 3⟩,
            fun h => by cases h⟩
          · cases Option.some.inj (hrecord.symm.trans hrecord')
            rw [hhandle]
            rfl
          · rw [List.mem_singleton.mp ht]
            exact Or.inr (.top rfl (Nat.zero_lt_succ 2))
          · exact List.nodup_singleton ()

theorem watching_step (s : Watched) (move : Move) (h : Watching runId service s)
    (halone : LimitAlone s move) : Watching runId service (policyStep runId service s move) := by
  cases move with
  | others world => exact watching_others world h
  | step position env =>
      cases hget : s.sys.2[position]? with
      | none =>
          simp only [policyStep, hget]
          exact h
      | some t =>
          rcases h with ⟨htasks, hrestarts, htripped⟩ | ⟨hrunning, hended⟩
          · exact watching_init htasks hrestarts htripped hget
          · exact Or.inr ⟨running_step hrunning hget, ended_step hrunning hended halone hget⟩

theorem policy_of_watching {s : Watched} (h : Watching runId service s) :
    Policy runId service s := by
  rcases h with ⟨-, hrestarts, htripped⟩ | ⟨hrunning, hended⟩
  · refine ⟨by rw [hrestarts]; exact Nat.zero_le 3, fun h => ?_⟩
    rw [htripped] at h
    exact nomatch h
  · exact ⟨hrunning.atMost, fun htripped => (hended htripped).2⟩

end Tasks

/-- **THE RESTART POLICY**: from the spawning of a monitor, whatever its checks, its
    restarts and their readiness waits bring, as long as the limit is only reached
    when no restart is waiting for its service. -/
theorem restart_policy (w : World) (runId service : String) {moves : List Move}
    (halone : Along (policyStep runId service) LimitAlone (spawnedMonitor runId service w) moves) :
    Along (policyStep runId service)
      (fun s move => Policy runId service (policyStep runId service s move))
      (spawnedMonitor runId service w) moves :=
  along_of_guarded (policyStep runId service) watching_step
    (fun s move h hok => policy_of_watching (watching_step s move h hok)) moves _
    (Or.inl ⟨rfl, rfl, rfl⟩) halone

-- ── a run with two restarts in vain ───────────────────────────────────────────

theorem limitAlone_iff {s : Watched} {position : Nat} {env : Env} :
    LimitAlone s (.step position env)
      ↔ ((s.sys.2[position]?).any trips = true → ∀ t ∈ s.sys.2, awaits t = false) := by
  constructor
  · intro h htrips
    cases hget : s.sys.2[position]? with
    | none =>
        rw [hget] at htrips
        exact nomatch htrips
    | some t =>
        rw [hget] at htrips
        cases t with
        | monitorLimit m => exact h m hget
        | _ => exact nomatch htrips
  · intro h m hget
    exact h (by rw [hget]; rfl)

instance decidableLimitAlone (s : Watched) : (move : Move) → Decidable (LimitAlone s move)
  | .step _ _ => decidable_of_iff' _ limitAlone_iff
  | .others _ => .isTrue trivial

/-- `web` is up and its checks fail; its first monitor is spawned. -/
def beforeMonitor : World := (run sysStep start (failing 16)).1

def turns (count : Nat) : List Move := List.replicate count (.step 0 unanswered)

/-- The readiness task of the last restart sets the service to `Ready` and writes the
    manifest. -/
def comesUp : List Move := List.replicate 3 (.step 1 unanswered)

/-- Three restarts, each after a check that turned the service to `Degraded`, up to the
    limit. -/
def toTheLimit : List Move := turns 18 ++ comesUp ++ turns 11 ++ comesUp ++ turns 11

theorem restart_policy_alone :
    Along (policyStep "dev-1" "web")
      (fun s move => Policy "dev-1" "web" (policyStep "dev-1" "web" s move))
      (spawnedMonitor "dev-1" "web" beforeMonitor) (toTheLimit ++ comesUp ++ turns 1) :=
  restart_policy beforeMonitor "dev-1" "web" (by decide +kernel)

/-- The last restart's readiness wait ends after the limit was reached. -/
theorem ready_after_limit : ¬ ∀ (w : World) (runId service : String) (moves : List Move),
    Along (policyStep runId service)
      (fun s move => Policy runId service (policyStep runId service s move))
      (spawnedMonitor runId service w) moves := by
  intro h
  have hlast := ((along_append (policyStep "dev-1" "web") _
    (spawnedMonitor "dev-1" "web" beforeMonitor) (toTheLimit ++ turns 1)
    [.step 1 unanswered]).mp (h beforeMonitor "dev-1" "web" _)).2.1
  have htripped : (policyStep "dev-1" "web"
      (run (policyStep "dev-1" "web") (spawnedMonitor "dev-1" "web" beforeMonitor)
        (toTheLimit ++ turns 1)) (.step 1 unanswered)).tripped = true := by
    decide +kernel
  have hready : (policyStep "dev-1" "web"
      (run (policyStep "dev-1" "web") (spawnedMonitor "dev-1" "web" beforeMonitor)
        (toTheLimit ++ turns 1)) (.step 1 unanswered)).sys.1.standing (.service "dev-1" "web")
      = some (.ready, none) := by
    decide +kernel
  exact absurd (hlast.2 htripped _ hready) (by decide)

end DevstackRestartPolicy
