import Devstack.Daemon.Aggregates
import Devstack.Daemon.Identity

/-! # Collection — the runs that `run_gc` removes

    `run_gc` of `src/app/commands/gc.rs` looks at the runs in memory, and at what their
    records say: `Stopped`, and a stop time that is not after the threshold.  A run that
    was stopped before the daemon restarted is only known from its manifest.

    A stopped run is at rest if it has its stop time, its services are stopped, and none
    of their units was started since it was stopped last.

    * `resting_step`: a stopped run stays at rest, unless a step that was on its way to
      one of its services gets there, or a status from before its refresh is written back;
    * `gc_exact_along`: in the runs without such steps, and with no expired run on disk
      alone, a collection removes the expired runs and no others. -/

namespace DevstackCollection

open DevstackModel DevstackStores DevstackReadiness DevstackHealth DevstackConfig DevstackLaunch
open DevstackStatus DevstackLocked DevstackWorld DevstackTasks DevstackSystem DevstackEffects
open DevstackSuccessors DevstackIdentity DevstackAggregates DevstackInterleaving
open DevstackMachine

/-! ## What a collection should remove -/

/-- The stop time parses, and is not after the threshold. -/
def expiredBy (parse : String → Option Int) (threshold : Int) (stoppedAt : String) : Bool :=
  match parse stoppedAt with
  | some stoppedTime => !decide (stoppedTime > threshold)
  | none => false

/-- A run is stopped, at a time that is not after the threshold. -/
def Expired (parse : String → Option Int) (threshold : Int) (state : RunLifecycle)
    (stoppedAt : Option String) : Prop :=
  state = .stopped ∧ ∃ text time, stoppedAt = some text ∧ parse text = some time ∧ time ≤ threshold

/-- The process manager reports the unit of a service active. -/
def unitActive (env : Env) (run service : String) : Bool :=
  (env.unitStatus (unitNameForRun run service)).any (fun unit => unit.activeState == "active")

/-- Neither in memory nor on disk. -/
def Removed (w : World) (id : String) : Prop := w.runs[id]? = none ∧ w.manifests[id]? = none

/-- What the claim asks of a collection: of the runs in memory, and of those on disk
    alone, it removes the expired ones; and none with a service that is not stopped, or
    with a unit that is active. -/
structure Exact (parse : String → Option Int) (threshold : Int) (env : Env) (w w' : World) :
    Prop where
  stored : ∀ id run, w.runs[id]? = some run →
    (Removed w' id ↔ Expired parse threshold run.state run.stoppedAt)
  persisted : ∀ id manifest, w.runs[id]? = none → w.manifests[id]? = some manifest →
    (Removed w' id ↔ Expired parse threshold manifest.state manifest.stoppedAt)
  idle : ∀ id run, w.runs[id]? = some run → Removed w' id →
    ∀ (name : String) (record : ServiceRecord), run.services[name]? = some record →
      record.runtime.state = .stopped ∧ unitActive env id name = false

/-- Every collection of a run of the daemon is so, whatever its threshold. -/
def GcExact (parse : String → Option Int) (s : Sys) (a : Action) : Prop :=
  ∀ position env threshold, a = .run position env → s.2[position]? = some .gc →
    env.expired = expiredBy parse threshold → Exact parse threshold env s.1 (sysStep s a).1

-- ── the condition ─────────────────────────────────────────────────────────────

/-- The last call to the process manager for the unit was to start it. -/
def started (w : World) (key : Key) : Bool :=
  match (w.unitOps.filter (·.owner = key)).getLast? with
  | some op => decide (op.action = .start ∨ op.action = .restart)
  | none => false

/-- The service of a run whose state a step may set, or whose unit it may start. -/
def touches : Task → Option (String × String)
  | .restart run service _ _ | .waitReadiness run service _ => some (run, service)
  | .restartUnit r | .waitRestart r => some (r.run, r.service)
  | .monitorLimit m => some (m.run, m.service)
  | .startUnit job _ name _ | .proxyFailed job _ name _ => some (job.runId, name)
  | .handleReadiness job _ name _ => if job.noWait then none else some (job.runId, name)
  | _ => none

/-- The run that a launch stores a record into. -/
def storesInto : Task → Option String
  | .storeFailedInit job .. | .storeResult job .. => some job.runId
  | _ => none

/-- The run that `down` or `kill` marks stopped. -/
def marksStopped : Task → Option String
  | .markStopped run _ => some run
  | _ => none

def collects : Task → Bool
  | .gc => true
  | _ => false

section Condition

variable (env : Env) (w : World)

/-- A step to a service of a run comes while the run is not stopped. -/
def Awake (t : Task) : Prop :=
  (∀ target ∈ touches t, ∀ run ∈ w.runs[target.1]?, run.state = .stopped →
      run.services[target.2]? = none)
    ∧ ∀ id ∈ storesInto t, ∀ run ∈ w.runs[id]?, run.state ≠ .stopped

/-- A status that says stopped is not written into a run that is not. -/
def Current (t : Task) : Prop :=
  ∀ written ∈ writtenStatus t, (buildStatus env.unitStatus written.2).state = .stopped →
    ∀ run ∈ w.runs[written.1]?, run.state = .stopped

/-- A run is marked stopped when its units have been. -/
def UnitsDown (t : Task) : Prop :=
  ∀ id ∈ marksStopped t, ∀ run ∈ w.runs[id]?, ∀ name ∈ run.services.keys,
    started w (.service id name) = false

/-- At a collection, a unit that is active was started since it was stopped, and no
    stopped run that is on disk alone has expired. -/
def DiskSettled (t : Task) : Prop :=
  collects t = true →
    (∀ kv ∈ w.runs.toList, ∀ name ∈ kv.2.services.keys, unitActive env kv.1 name = true →
      started w (.service kv.1 name) = true)
    ∧ ∀ kv ∈ w.manifests.toList, w.runs[kv.1]? = none → kv.2.state = .stopped →
      ∀ text ∈ kv.2.stoppedAt, env.expired text = false

instance (t : Task) : Decidable (Awake w t) :=
  inferInstanceAs (Decidable ((∀ target ∈ touches t, _) ∧ ∀ id ∈ storesInto t, _))

instance (t : Task) : Decidable (Current env w t) :=
  inferInstanceAs (Decidable (∀ written ∈ writtenStatus t, _))

instance (t : Task) : Decidable (UnitsDown w t) :=
  inferInstanceAs (Decidable (∀ id ∈ marksStopped t, _))

instance (t : Task) : Decidable (DiskSettled env w t) :=
  inferInstanceAs (Decidable (_ → _))

end Condition

/-- The condition on a step. -/
def LeavesStopped (s : Sys) : Action → Prop
  | .run position env => ∀ t ∈ s.2[position]?,
      Awake s.1 t ∧ Current env s.1 t ∧ UnitsDown s.1 t ∧ DiskSettled env s.1 t
  | _ => True

instance (s : Sys) : (a : Action) → Decidable (LeavesStopped s a)
  | .run position _ => inferInstanceAs (Decidable (∀ t ∈ s.2[position]?, _))
  | .request _ | .daemonRestart _ => .isTrue trivial

/-! ## Stopped runs at rest -/

/-- A stopped run has its stop time, its services are stopped, and their units were not
    started again. -/
structure AtRest (w : World) (id : String) (run : RunRecord) : Prop where
  stopTime : run.stoppedAt.isSome = true
  services : ∀ name s, standingIn run name = some s →
    s.1 = .stopped ∧ started w (.service id name) = false

def Resting (w : World) : Prop :=
  ∀ id run, w.runs[id]? = some run → run.state = .stopped → AtRest w id run

theorem started_unit (w : World) (action : UnitAction) (owner : Key) (unitName : String) (key : Key) :
    started (w.unit action owner unitName) key
      = if owner = key then decide (action = .start ∨ action = .restart) else started w key := by
  rw [started, World.unit]
  dsimp only
  rw [List.filter_append]
  by_cases h : owner = key
  · rw [if_pos h, List.filter_cons_of_pos (by simpa using h), List.filter_nil,
      List.getLast?_append]
    rfl
  · rw [if_neg h, List.filter_cons_of_neg (by simpa using h), List.filter_nil, List.append_nil]
    rfl

-- ── the locked steps ──────────────────────────────────────────────────────────

/-- The service whose state an operation sets, of those that do not look at it. -/
def sets : RunOp → Option String
  | .beginRestart service _ | .markReady service .. | .markFailed service .. => some service
  | _ => none

/-- Operations on a run, or on a service that the run has already, that neither stop the
    run nor wake it. -/
def within : RunOp → Bool
  | .store .. | .updateResources _ | .stopAll _ | .reconcile _ => false
  | _ => true

section Ops

variable {run : RunRecord}

theorem stoppedAt_recompute : (recomputeRunState run).1.stoppedAt = run.stoppedAt := by
  rw [recomputeRunState]
  split <;> rfl

theorem stoppedAt_updateAndRecompute (service : String)
    (f : ServiceRecord → ServiceRecord × Option DaemonEvent) :
    (updateAndRecompute run service f).1.stoppedAt = run.stoppedAt := by
  rw [updateAndRecompute]
  split <;> exact stoppedAt_recompute

theorem stoppedAt_updateService (service : String)
    (f : ServiceRecord → ServiceRecord × List HandleId) :
    (updateService run service f).1.stoppedAt = run.stoppedAt := by
  rw [updateService]
  split <;> rfl

theorem stoppedAt_apply {op : RunOp} (hop : within op = true) :
    (op.apply run).1.stoppedAt = run.stoppedAt := by
  cases op with
  | beginRestart service now => exact stoppedAt_updateAndRecompute ..
  | markReady service now fresh => exact stoppedAt_updateAndRecompute ..
  | markFailed service now reason => exact stoppedAt_updateAndRecompute ..
  | transition service now change =>
      cases change with
      | healthy => rfl
      | recoverToReady => exact stoppedAt_updateAndRecompute ..
      | markDegraded => exact stoppedAt_updateAndRecompute ..
  | restarted service now | compareHash service hash | syncWatcher service
  | keepWatcher service fresh | syncCapture service | keepCapture service fresh
  | applyPrepared service prepared => exact stoppedAt_updateService ..
  | setWatchPaused service value =>
      cases service with
      | some service => exact stoppedAt_updateService ..
      | none => rfl
  | removeMissing removed =>
      simp only [RunOp.apply, removeServicesMissingFromStack]
      split
      · rfl
      · exact stoppedAt_recompute
  | recompute => exact stoppedAt_recompute
  | stopHandles => rfl
  | store service record | updateResources baseEnv | stopAll now | reconcile status =>
      cases hop

/-- Such an operation leaves a stopped service stopped, unless it sets its state. -/
theorem standingAfter_stopped {op : RunOp} (hop : within op = true)
    (habsent : ∀ service ∈ sets op, run.services[service]? = none) {name : String} {s : Standing}
    (h : op.standingAfter run name = some s) :
    ∃ s₀, standingIn run name = some s₀ ∧ (s₀.1 = .stopped → s.1 = .stopped) := by
  have hset : ∀ service : String, service ∈ sets op →
      (if name = service then (standingIn run name).map op.leaves else standingIn run name) = some s →
      ∃ s₀, standingIn run name = some s₀ ∧ (s₀.1 = .stopped → s.1 = .stopped) := by
    intro service hservice h
    split at h
    · next heq =>
        rw [standingIn, heq, habsent service hservice] at h
        cases h
    · exact ⟨s, h, fun hs => hs⟩
  have hsame : ∀ service : String, (if name = service then (standingIn run name).map (fun s => s)
      else standingIn run name) = some s →
      ∃ s₀, standingIn run name = some s₀ ∧ (s₀.1 = .stopped → s.1 = .stopped) := by
    intro service h
    rw [Option.map_id', ite_self] at h
    exact ⟨s, h, fun hs => hs⟩
  cases op with
  | beginRestart service now => exact hset service rfl h
  | markReady service now fresh => exact hset service rfl h
  | markFailed service now reason => exact hset service rfl h
  | transition service now change =>
      change (if name = service then (standingIn run name).map (transitionStanding change)
        else standingIn run name) = some s at h
      split at h
      · obtain ⟨s₀, hs₀, rfl⟩ := Option.map_eq_some_iff.mp h
        refine ⟨s₀, hs₀, fun hstopped => ?_⟩
        cases change with
        | healthy => exact hstopped
        | recoverToReady => simp [transitionStanding, hstopped]
        | markDegraded => simp [transitionStanding, hstopped]
      · exact ⟨s, h, fun hs => hs⟩
  | restarted service now | compareHash service hash | syncWatcher service
  | keepWatcher service fresh | syncCapture service | keepCapture service fresh
  | applyPrepared service prepared => exact hsame service h
  | removeMissing removed =>
      simp only [RunOp.standingAfter] at h
      split at h
      · cases h
      · exact ⟨s, h, fun hs => hs⟩
  | setWatchPaused service value | recompute | stopHandles => exact ⟨s, h, fun hs => hs⟩
  | store service record | updateResources baseEnv | stopAll now | reconcile status =>
      cases hop

end Ops

section Worlds

variable {w : World} {id : String} {run : RunRecord}

/-- A run at rest stays so under an operation that sets the state of none of its services. -/
theorem atRest_apply {op : RunOp} (hop : within op = true)
    (hrest : run.state = .stopped → AtRest w id run)
    (habsent : run.state = .stopped → ∀ service ∈ sets op, run.services[service]? = none)
    (hstopped : (op.apply run).1.state = .stopped) : AtRest w id (op.apply run).1 := by
  have hkeeps : keepsStopped op = true := by
    cases op <;> first | rfl | exact nomatch hop
  have hbefore : run.state = .stopped := (stopped_apply run hkeeps).mp hstopped
  have hrest := hrest hbefore
  refine ⟨(stoppedAt_apply hop).symm ▸ hrest.stopTime, fun name s hs => ?_⟩
  rw [RunOp.standing_apply] at hs
  obtain ⟨s₀, hs₀, hstays⟩ := standingAfter_stopped hop (habsent hbefore) hs
  obtain ⟨hstate, hunit⟩ := hrest.services name s₀ hs₀
  exact ⟨hstays hstate, hunit⟩

/-- `down` puts a run to rest whose units were stopped. -/
theorem atRest_stopAll (now : String)
    (hunits : ∀ name ∈ run.services.keys, started w (.service id name) = false) :
    AtRest w id (stopAllServices now run) := by
  refine ⟨rfl, fun name s hs => ?_⟩
  rw [standingIn_stopAll] at hs
  obtain ⟨s₀, hs₀, rfl⟩ := Option.map_eq_some_iff.mp hs
  obtain ⟨record, hrecord, -⟩ := Option.map_eq_some_iff.mp hs₀
  refine ⟨rfl, hunits name (Std.ExtTreeMap.mem_keys.mpr ?_)⟩
  rw [Std.ExtTreeMap.mem_iff_isSome_getElem?, hrecord]
  rfl

/-- A status that says stopped is of a stopped copy, and has its services as they are. -/
theorem buildStatus_stopped {unitStatus : String → Option UnitStatus} {copy : RunRecord}
    (h : (buildStatus unitStatus copy).state = .stopped) : copy.state = .stopped := by
  obtain haggregate | ⟨hother, -⟩ :=
    derivedRunState_cases ((buildStatus unitStatus copy).services.toList.map (fun kv => kv.2.state))
      copy.state
  · have hstate : aggregate ((buildStatus unitStatus copy).services.toList.map
        (fun kv => kv.2.state)) = .stopped := haggregate.symm.trans h
    rw [aggregate, derivedRunState] at hstate
    split at hstate
    · cases hstate
    · split at hstate <;> cases hstate
  · exact hother.symm.trans h

/-- A status of a stopped run, written into a run at rest. -/
theorem atRest_reconcile {unitStatus : String → Option UnitStatus} {copy : RunRecord}
    (hcopy : copy.state = .stopped → ∀ name s, standingIn copy name = some s → s.1 = .stopped)
    (hrest : AtRest w id run) (h : (buildStatus unitStatus copy).state = .stopped) :
    AtRest w id (DevstackStatus.reconcile (buildStatus unitStatus copy) run) := by
  have hstopped := buildStatus_stopped h
  refine ⟨hrest.stopTime, fun name s hs => ?_⟩
  rw [standingIn_reconcile] at hs
  simp only [RunOp.standingAfter] at hs
  split at hs
  · next s₀ status hs₀ hstatus =>
      obtain rfl := Option.some.inj hs
      refine ⟨?_, (hrest.services name s₀ hs₀).2⟩
      simp only [buildStatus, Std.ExtTreeMap.getElem?_map, Option.map_eq_some_iff] at hstatus
      obtain ⟨record, hrecord, rfl⟩ := hstatus
      simp only [serviceStatus, hstopped, unitRule_stopped]
      exact hcopy hstopped name (standing record) (by rw [standingIn, hrecord]; rfl)
  · exact hrest.services name s hs

/-- Rest looks at the calls for the units only. -/
theorem AtRest.of_units {w' : World} (h : AtRest w id run) (hunits : w'.unitOps = w.unitOps) :
    AtRest w' id run := by
  refine ⟨h.stopTime, fun name s hs => ?_⟩
  rw [started, hunits]
  exact h.services name s hs

/-- Runs that were there before. -/
theorem Resting.of_runs {w' : World} (hw : Resting w)
    (hruns : ∀ (id : String) (run : RunRecord), w'.runs[id]? = some run → w.runs[id]? = some run)
    (hunits : w'.unitOps = w.unitOps) : Resting w' :=
  fun id run hrun hstopped => (hw id run (hruns id run hrun) hstopped).of_units hunits

theorem resting_lock (hw : Resting w) {op : RunOp}
    (hop : ∀ run, w.runs[id]? = some run → (op.apply run).1.state = .stopped →
      AtRest w id (op.apply run).1) : Resting (w.lock id op) := by
  have hunits : (w.lock id op).unitOps = w.unitOps := by
    rw [World.lock]
    split <;> rfl
  intro id' run' hrun' hstopped
  obtain ⟨run, hrun, rfl | ⟨rfl, rfl⟩⟩ := runs_lock hrun'
  · exact (hw id' run' hrun hstopped).of_units hunits
  · exact (hop run hrun hstopped).of_units hunits

/-- An operation that sets no service of a stopped run. -/
theorem resting_within (hw : Resting w) {op : RunOp} (hop : within op = true)
    (habsent : ∀ run ∈ w.runs[id]?, run.state = .stopped → ∀ service ∈ sets op,
      run.services[service]? = none) : Resting (w.lock id op) :=
  resting_lock hw (fun run hrun => atRest_apply hop (hw id run hrun) (habsent run hrun))

/-- A unit that is no stopped run's is started, or a unit is stopped. -/
theorem resting_unit (hw : Resting w) {action : UnitAction} {owner : Key} (unitName : String)
    (h : action = .start ∨ action = .restart → ∀ id name, owner = .service id name →
      ∀ run ∈ w.runs[id]?, run.state = .stopped → run.services[name]? = none) :
    Resting (w.unit action owner unitName) := by
  intro id run hrun hstopped
  obtain ⟨htime, hservices⟩ := hw id run hrun hstopped
  refine ⟨htime, fun name s hs => ?_⟩
  obtain ⟨hstate, hunit⟩ := hservices name s hs
  refine ⟨hstate, ?_⟩
  rw [started_unit]
  split
  · next howner =>
      by_cases hstart : action = .start ∨ action = .restart
      · rw [standingIn, h hstart id name howner run hrun hstopped] at hs
        cases hs
      · exact decide_eq_false hstart
  · exact hunit

end Worlds

-- ── the steps ─────────────────────────────────────────────────────────────────

/-- A call that starts or restarts the unit of a run's service. -/
def startsService : Effect → Bool
  | .unit .start (.service ..) _ | .unit .restart (.service ..) _ => true
  | _ => false

/-- Accesses that take no stopped run from its rest, whatever the world. -/
def spares : Effect → Bool
  | .lock _ (.updateResources _) => true
  | .lock _ op => within op && (sets op).isNone
  | .createRun run => decide (run.state ≠ .stopped)
  | e => !startsService e

section Steps

variable {env : Env} {w : World}

theorem resting_apply (hw : Resting w) {e : Effect} (he : spares e = true) :
    Resting (e.apply w) := by
  have hwithin : ∀ (id : String) (op : RunOp), (within op && (sets op).isNone) = true →
      Resting (w.lock id op) := by
    intro id op hop
    obtain ⟨hop, hsets⟩ := Bool.and_eq_true_iff.mp hop
    refine resting_within hw hop (fun run _ _ service hservice => ?_)
    rw [Option.isNone_iff_eq_none.mp hsets] at hservice
    cases hservice
  cases e with
  | lock id op =>
      cases op with
      | updateResources baseEnv =>
          refine resting_lock hw (fun run _ hstopped => ?_)
          simp only [RunOp.apply, updateRunLaunchResources] at hstopped
          split at hstopped
          · cases hstopped
          · next hne => exact absurd hstopped hne
      | _ => exact hwithin id _ he
  | createRun run =>
      intro id run' hrun' hstopped
      change (w.runs.insert run.runId run)[id]? = some run' at hrun'
      rw [Std.ExtTreeMap.getElem?_insert] at hrun'
      split at hrun'
      · rw [← Option.some.inj hrun'] at hstopped
        exact absurd hstopped (of_decide_eq_true he)
      · exact (hw id run' hrun' hstopped).of_units rfl
  | unit action owner unitName =>
      refine resting_unit hw unitName (fun hstart id name howner => ?_)
      rw [howner] at he
      rcases hstart with rfl | rfl <;> cases he
  | purge removed =>
      refine hw.of_runs (fun id run hrun => ?_) rfl
      change (w.runs.erase removed)[id]? = some run at hrun
      rw [Std.ExtTreeMap.getElem?_erase] at hrun
      split at hrun
      · cases hrun
      · exact hrun
  | collect expired =>
      refine hw.of_runs (fun id run hrun => ?_) rfl
      simp only [Effect.apply, Std.ExtTreeMap.getElem?_filter'] at hrun
      exact (Option.filter_eq_some_iff.mp hrun).1
  | lockGlobal key op =>
      simp only [Effect.apply, World.lockGlobal]
      split
      · exact hw.of_runs (fun _ _ hrun => hrun) rfl
      · exact hw
  | upsertGlobal global | raise handle | storePaused handle value | allocate | beginLaunch key
  | writeManifest manifest | writeGlobalManifest manifest | serve =>
      exact hw.of_runs (fun _ _ hrun => hrun) rfl

theorem resting_effects {es : List Effect} (hw : Resting w) (hes : ∀ e ∈ es, spares e = true) :
    Resting (es.foldl Effect.apply w) := by
  induction es generalizing w with
  | nil => exact hw
  | cons e es ih =>
      exact ih (resting_apply hw (hes e List.mem_cons_self))
        (fun e' he' => hes e' (List.mem_cons_of_mem e he'))

/-- The tasks that mark a run stopped, write a status, set the state of a service or start
    its unit. -/
def acts (t : Task) : Bool :=
  match t with
  | .handleReadiness .. => true
  | _ => (touches t).isSome || (storesInto t).isSome || (writtenStatus t).isSome
      || (marksStopped t).isSome

/-- No other task starts a unit. -/
theorem no_start {t : Task} (ht : acts t = false) :
    (effects env w t).any startsService = false := by
  cases t with
  | stopRemoved job removed todo => cases todo <;> rfl
  | stopUnits run kill purges todo =>
      cases todo with
      | nil => rfl
      | cons name todo => cases kill <;> rfl
  | boot jobs => cases jobs <;> rfl
  | ensureGlobals todo caller | launchNext job todo => rfl
  | pauseWatch run service | resumeWatch run service =>
      simp only [effects]
      split
      · rfl
      · split
        · rfl
        · simp [setPausedEffects, startsService]
  | restart run service noWait caller | waitReadiness run service launch | restartUnit r
  | waitRestart r | monitorLimit m | startUnit job prepared name rest
  | proxyFailed job launch name reason | handleReadiness job launch name rest
  | storeFailedInit job prepared error name rest
  | storeResult job prepared launch start name rest | writeStatus run copy k
  | markStopped run purges => cases ht
  | _ =>
      simp only [effects]
      repeat' split
      all_goals rfl

theorem spares_of_mem {t : Task} (ht : acts t = false) {e : Effect} (he : e ∈ effects env w t) :
    spares e = true := by
  have hstart : startsService e = false := by
    simpa using List.any_eq_false.mp (no_start ht) e he
  have hmakes := makes_of_mem he
  cases hmakes with
  | aside t haside =>
      cases e with
      | unit action owner unitName =>
          show (!startsService _) = true
          rw [hstart]
          rfl
      | storePaused handle value | beginLaunch key | writeGlobalManifest manifest | serve => rfl
      | _ => exact nomatch haside
  | _ => first | rfl | exact nomatch ht

/-- The services of a copy that says stopped are stopped. -/
def CopyDown (t : Task) : Prop :=
  ∀ written ∈ writtenStatus t, written.2.state = .stopped →
    ∀ name s, standingIn written.2 name = some s → s.1 = .stopped

/-- A step sets the state of one service, which no stopped run has. -/
theorem resting_sets (hw : Resting w) {run service : String} {op : RunOp} (hop : within op = true)
    (hsets : sets op = some service)
    (habsent : ∀ record ∈ w.runs[run]?, record.state = .stopped →
      record.services[service]? = none) : Resting (w.lock run op) := by
  refine resting_within hw hop (fun record hrecord hstopped name hname => ?_)
  rw [hsets] at hname
  exact Option.some.inj hname ▸ habsent record hrecord hstopped

theorem resting_deliver (hw : Resting w) {run service now : String} {result : Except String Unit}
    (habsent : ∀ record ∈ w.runs[run]?, record.state = .stopped →
      record.services[service]? = none) :
    Resting (deliver w run service now result).1 := by
  cases result with
  | error reason => exact resting_sets hw rfl rfl habsent
  | ok _ =>
      have hmarked : Resting (w.lock run (.markReady service now w.nextHandle)) :=
        resting_sets hw rfl rfl habsent
      simp only [deliver, markReadyStep]
      split
      · split
        · exact hmarked.of_runs (fun _ _ hrun => hrun) rfl
        · exact hmarked
      · exact hmarked

/-- **A STEP LEAVES STOPPED RUNS AT REST**, if it comes to their services while they are
    not stopped. -/
theorem resting_step {t : Task} (hw : Resting w) (hcopy : CopyDown t) (hawake : Awake w t)
    (hcurrent : Current env w t) (hunits : UnitsDown w t) : Resting (t.step env w).1 := by
  have hstored : ∀ {run service : String} {record : ServiceRecord}, run ∈ storesInto t →
      Resting (w.lock run (.store service record)) := by
    intro run service record hinto
    exact resting_lock hw (fun r hr hstopped => absurd hstopped (hawake.2 run hinto r hr))
  cases hacts : acts t with
  | false =>
      rw [step_world]
      exact resting_effects hw (fun e he => spares_of_mem hacts he)
  | true =>
      cases t with
      | restart run service noWait caller =>
          simp only [Task.step]
          split
          · exact hw
          · split
            · exact hw
            · exact (resting_sets hw rfl rfl (hawake.1 (run, service) rfl)).of_runs
                (fun _ _ hrun => hrun) rfl
      | restartUnit r =>
          refine resting_unit hw r.unitName (fun _ id name howner => ?_)
          obtain ⟨rfl, rfl⟩ := Key.service.inj howner
          exact hawake.1 (r.run, r.service) rfl
      | startUnit job prepared name rest =>
          have hstart : ∀ {w' : World}, Resting w' → w'.runs = w.runs →
              Resting (w'.unit .start (.service job.runId name) prepared.unitName) := by
            intro w' hw' hruns
            refine resting_unit hw' prepared.unitName (fun _ id name' howner => ?_)
            obtain ⟨rfl, rfl⟩ := Key.service.inj howner
            rw [hruns]
            exact hawake.1 (job.runId, name) rfl
          have hstopped : Resting (w.unit .stop (.service job.runId name) prepared.unitName) :=
            resting_unit hw prepared.unitName (fun h => by simp at h)
          have hbegun : Resting ((if job.existing.contains name then
              w.unit .stop (.service job.runId name) prepared.unitName else w).unit .start
              (.service job.runId name) prepared.unitName) := by
            split
            · exact hstart hstopped rfl
            · exact hstart hw rfl
          simp only [Task.step]
          split <;> exact hbegun.of_runs (fun _ _ hrun => hrun) rfl
      | waitRestart r =>
          simp only [Task.step]
          split
          · exact hw
          · exact resting_deliver hw (hawake.1 (r.run, r.service) rfl)
      | waitReadiness run service launch =>
          exact resting_deliver hw (hawake.1 (run, service) rfl)
      | handleReadiness job launch name rest =>
          simp only [Task.step]
          cases hnoWait : job.noWait with
          | true => exact hw
          | false =>
              have htouches : touches (.handleReadiness job launch name rest)
                  = some (job.runId, name) := by
                rw [touches, hnoWait]
                rfl
              split
              · cases ‹false = true›
              · split
                · exact hw
                · exact resting_deliver hw (hawake.1 (job.runId, name) htouches)
      | monitorLimit m => exact resting_sets hw rfl rfl (hawake.1 (m.run, m.service) rfl)
      | proxyFailed job launch name reason =>
          simp only [Task.step]
          split
          · exact hw
          · exact resting_sets hw rfl rfl (hawake.1 (job.runId, name) rfl)
      | storeFailedInit job prepared error name rest =>
          simp only [Task.step]
          split
          · exact hw
          · exact hstored rfl
      | storeResult job prepared launch start name rest =>
          simp only [Task.step]
          split
          · exact hw
          · exact hstored rfl
      | writeStatus run copy k =>
          simp only [Task.step]
          split
          · exact hw
          · refine resting_lock hw (fun r hr hstopped => ?_)
            have hrun := hcurrent (run, copy) rfl hstopped r hr
            exact atRest_reconcile (hcopy (run, copy) rfl) (hw run r hr hrun) hstopped
      | markStopped run purges =>
          simp only [Task.step]
          split
          · exact hw
          · exact resting_lock hw (fun r hr _ => atRest_stopAll env.now (hunits run rfl r hr))
      | _ => cases hacts

theorem no_copy {t : Task} (h : writtenStatus t = none) : CopyDown t := by
  intro written hwritten
  rw [h] at hwritten
  exact nomatch hwritten

theorem no_copy_resume {k : Cont} {result : Except String Unit} {t' : Task}
    (h : t' ∈ k.resume result) : CopyDown t' := by
  refine no_copy ?_
  have hresumes := resumes_of_mem h
  cases hresumes <;> rfl

theorem no_copy_globals {caller : GlobalsCaller} {result : Except String Unit} {t' : Task}
    (h : t' ∈ caller.resume result) : CopyDown t' := by
  refine no_copy ?_
  have hresumes := globalsResumes_of_mem h
  cases hresumes <;> rfl

theorem no_copy_caller {caller : Caller} {t' : Task} (h : t' ∈ caller.resume) : CopyDown t' := by
  refine no_copy ?_
  cases caller with
  | request => exact nomatch h
  | monitor m => rcases mem_either h with rfl | rfl <;> rfl
  | watcher t => rw [List.mem_singleton.mp h]; rfl

/-- A copy of a run is read while its stopped runs are at rest. -/
theorem copyDown_step {t t' : Task} (hw : Resting w) (h : t' ∈ (t.step env w).2) :
    CopyDown t' := by
  have hsucc := succ_of_mem h
  cases hsucc with
  | statusWrite run copy k =>
      have hrun : w.runs[run]? = some copy := by
        simp only [Task.step] at h
        split at h
        · have hresumes := resumes_of_mem h
          cases hresumes
        · next record hrecord =>
            rw [List.mem_singleton] at h
            obtain ⟨-, rfl, -⟩ := Task.writeStatus.inj h
            exact hrecord
      intro written hwritten hstopped name s hs
      obtain rfl := Option.some.inj hwritten
      exact ((hw run copy hrun hstopped).services name s hs).1
  | persistGone hmem | writeResume hmem | persistGlobalGone hmem | writeGlobalResume hmem
  | syncWatcherResume hmem | keepWatcherResume hmem | syncGlobalWatcherResume hmem
  | keepGlobalWatcherResume hmem | syncCaptureResume hmem | keepCaptureResume hmem
  | statusGone hmem | writeStatusResume hmem | listRuns hmem | resumeWatch hmem =>
      exact no_copy_resume hmem
  | restartGone hmem | loadPostInitFailed hmem | restartUnitFailed hmem | waitRestartGone hmem =>
      exact no_copy_caller hmem
  | ensureGlobalsDone hmem | checkGlobalFailed hmem => exact no_copy_globals hmem
  | _ => exact no_copy rfl

end Steps

-- ── the daemon ────────────────────────────────────────────────────────────────

/-- Stopped runs are at rest, and so are the copies that are yet to be written back. -/
def Rested (s : Sys) : Prop := Resting s.1 ∧ ∀ t ∈ s.2, CopyDown t

theorem rested_start : Rested start :=
  ⟨fun _ _ hrun => (nomatch hrun), fun _ ht => (nomatch ht)⟩

/-- No stopped run is restored. -/
theorem restoreRun_state {answers : RestoreAnswers} {manifest : PersistedRun} {run : RunRecord}
    (h : restoreRun answers manifest = some run) : run.state ≠ .stopped := by
  rw [restoreRun] at h
  split at h
  · next hrestorable =>
      obtain ⟨prepared, -, rfl⟩ := Option.map_eq_some_iff.mp h
      simp only [runManifestIsRestorable, Bool.and_eq_true, decide_eq_true_eq] at hrestorable
      exact hrestorable.1.1
  · cases h

theorem rested_sysStep {s : Sys} {a : Action} (hs : Rested s) (hok : LeavesStopped s a) :
    Rested (sysStep s a) := by
  cases a with
  | request request =>
      simp only [sysStep]
      split
      · refine ⟨hs.1, fun t ht => ?_⟩
        rcases List.mem_append.mp ht with ht | ht
        · exact hs.2 t ht
        · rw [List.mem_singleton.mp ht]
          cases request <;> exact no_copy rfl
      · exact hs
  | run position env =>
      simp only [sysStep]
      cases ht : s.2[position]? with
      | none =>
          rw [stepAt_none Task.step ht]
          exact hs
      | some t =>
          have hmem := List.mem_of_getElem? ht
          obtain ⟨hawake, hcurrent, hunits, -⟩ := hok t ht
          refine ⟨?_, fun t' ht' => ?_⟩
          · rw [stepAt_some Task.step ht]
            exact resting_step hs.1 (hs.2 t hmem) hawake hcurrent hunits
          · rcases mem_stepAt Task.step ht ht' with ht' | ht'
            · exact copyDown_step hs.1 ht'
            · exact hs.2 t' ht'
  | daemonRestart answers =>
      refine ⟨fun id run hrun hstopped => ?_, fun t ht => ?_⟩
      · simp only [sysStep, restartDaemon, Std.ExtTreeMap.getElem?_filterMap'] at hrun
        obtain ⟨manifest, -, hrestored⟩ := Option.bind_eq_some_iff.mp hrun
        exact absurd hstopped (restoreRun_state hrestored)
      · rw [List.mem_singleton.mp ht]
        exact no_copy rfl

/-! ## What a collection removes -/

section Collects

variable {env : Env} {w : World} {parse : String → Option Int} {threshold : Int}

theorem expiredBy_iff {text : String} :
    expiredBy parse threshold text = true ↔ ∃ time, parse text = some time ∧ time ≤ threshold := by
  rw [expiredBy]
  cases parse text with
  | none => simp
  | some time => simp

/-- What the records say of a run that has its stop time is whether it is expired. -/
theorem gcRemoves_iff (hexpired : env.expired = expiredBy parse threshold) {run : RunRecord}
    (htime : run.state = .stopped → run.stoppedAt.isSome = true) :
    gcRemoves env.expired run = true ↔ Expired parse threshold run.state run.stoppedAt := by
  rw [gcRemoves, hexpired, Bool.and_eq_true, decide_eq_true_eq, Expired]
  refine and_congr_right fun hstopped => ?_
  obtain ⟨text, htext⟩ := Option.isSome_iff_exists.mp (htime hstopped)
  rw [htext, expiredBy_iff]
  constructor
  · rintro ⟨time, hparse, hle⟩
    exact ⟨text, time, rfl, hparse, hle⟩
  · rintro ⟨text', time, htext', hparse, hle⟩
    obtain rfl := Option.some.inj htext'
    exact ⟨time, hparse, hle⟩

theorem removed_collect_stored {id : String} {run : RunRecord} (hrun : w.runs[id]? = some run) :
    Removed ((Effect.collect env.expired).apply w) id ↔ gcRemoves env.expired run = true := by
  simp only [Removed, Effect.apply, Std.ExtTreeMap.getElem?_filter', hrun]
  cases hremoves : gcRemoves env.expired run with
  | true => cases w.manifests[id]? <;> simp [hremoves]
  | false => simp [hremoves]

/-- Of the manifests without a record none is removed. -/
theorem kept_collect_persisted {id : String} {manifest : PersistedRun}
    (hrun : w.runs[id]? = none) (hmanifest : w.manifests[id]? = some manifest) :
    ¬ Removed ((Effect.collect env.expired).apply w) id := by
  rintro ⟨-, h⟩
  simp only [Effect.apply, Std.ExtTreeMap.getElem?_filter', hmanifest, hrun] at h
  cases h

/-- **A COLLECTION IS EXACT** where the stopped runs are at rest, their units are as they
    were left, and no expired run is on disk alone. -/
theorem exact_collect (hexpired : env.expired = expiredBy parse threshold) (hw : Resting w)
    (hdisk : DiskSettled env w .gc) :
    Exact parse threshold env w ((Effect.collect env.expired).apply w) := by
  obtain ⟨hunits, hpersisted⟩ := hdisk rfl
  have hremoves : ∀ id run, w.runs[id]? = some run →
      (gcRemoves env.expired run = true ↔ Expired parse threshold run.state run.stoppedAt) :=
    fun id run hrun => gcRemoves_iff hexpired (fun hstopped => (hw id run hrun hstopped).stopTime)
  refine ⟨fun id run hrun => ?_, fun id manifest hrun hmanifest => ?_,
    fun id run hrun hremoved name record hrecord => ?_⟩
  · exact (removed_collect_stored hrun).trans (hremoves id run hrun)
  · refine iff_of_false (kept_collect_persisted hrun hmanifest) ?_
    rintro ⟨hstopped, text, time, htext, hparse, hle⟩
    have hnot := hpersisted (id, manifest)
      (Std.ExtTreeMap.mem_toList_iff_getElem?_eq_some.mpr hmanifest) hrun hstopped text htext
    rw [hexpired, expiredBy_iff.mpr ⟨time, hparse, hle⟩] at hnot
    cases hnot
  · have hstopped := ((hremoves id run hrun).mp ((removed_collect_stored hrun).mp hremoved)).1
    obtain ⟨hstate, hunit⟩ := (hw id run hrun hstopped).services name (standing record)
      (by rw [standingIn, hrecord]; rfl)
    refine ⟨hstate, Bool.eq_false_iff.mpr fun hactive => ?_⟩
    have hstarted := hunits (id, run) (Std.ExtTreeMap.mem_toList_iff_getElem?_eq_some.mpr hrun) name
      (Std.ExtTreeMap.mem_keys.mpr (Std.ExtTreeMap.mem_iff_isSome_getElem?.mpr (by rw [hrecord]; rfl)))
      hactive
    rw [hunit] at hstarted
    cases hstarted

end Collects

/-- **GC REMOVES WHAT IT MAY**: in every run of the daemon whose steps come to no stopped
    run, every collection removes the expired runs and no others. -/
theorem gc_exact_along (parse : String → Option Int) (as : List Action)
    (h : Along sysStep LeavesStopped start as) : Along sysStep (GcExact parse) start as := by
  refine along_of_guarded sysStep (fun _ _ => rested_sysStep) (fun s a hs hok => ?_) as start
    rested_start h
  rintro position env threshold rfl hget hexpired
  have hstep : (sysStep s (.run position env)).1 = (Effect.collect env.expired).apply s.1 := by
    simp only [sysStep]
    rw [stepAt_some Task.step hget]
    rfl
  rw [hstep]
  exact exact_collect hexpired hs.1 (hok .gc hget).2.2.2

-- ── a run that is stopped ─────────────────────────────────────────────────────

/-- The one stop time that is met here, in seconds. -/
def stopTimes (text : String) : Option Int :=
  if text = smooth.now then some 1735689600 else none

/-- A collection with a threshold after the stop. -/
def later : Env := { smooth with expired := expiredBy stopTimes 1736294400 }

/-- `up --no-wait`, then `down`. -/
def downWeb : List Action :=
  upWeb ++ .request (.down "dev-1" false) :: List.replicate 8 (.run 1 smooth)

theorem gc_exact_along_down :
    Along sysStep (GcExact stopTimes) start (downWeb ++ [.request .gc, .run 1 later]) :=
  gc_exact_along stopTimes _ (by decide)

/-- The daemon restarts after `down`. -/
def forgottenWeb : List Action :=
  downWeb ++ [.daemonRestart ⟨fun _ => true, fun _ => none, fun _ => none⟩, .run 0 smooth,
    .request .gc]

/-- The service is restarted after `down`. -/
def restartedWeb : List Action :=
  downWeb ++ [.request (.restartService "dev-1" "web" true), .run 1 smooth, .run 1 smooth,
    .run 1 smooth, .request .gc]

/-- What the manifest of the run says. -/
def manifestSays (s : Sys) : Option (RunLifecycle × Option String) :=
  (s.1.manifests["dev-1"]?).map (fun manifest => (manifest.state, manifest.stoppedAt))

def webState (s : Sys) : Option ServiceState :=
  ((s.1.runs["dev-1"]?).bind (·.services["web"]?)).map (·.runtime.state)

theorem exact_of_along {as : List Action} {position : Nat}
    (h : Along sysStep (GcExact stopTimes) start (as ++ [.run position later]))
    (hgc : ((run sysStep start as).2[position]?).map collects = some true) :
    Exact stopTimes 1736294400 later (run sysStep start as).1
      (run sysStep start (as ++ [.run position later])).1 := by
  have hexact := ((along_append sysStep _ start as _).mp h).2.1
  rw [run_append]
  refine hexact position later 1736294400 rfl ?_ rfl
  obtain ⟨t, ht, hcollects⟩ := Option.map_eq_some_iff.mp hgc
  cases t with
  | gc => exact ht
  | _ => exact nomatch hcollects

/-- A run that was stopped before the daemon restarted is not removed; one that has been
    restarted is, with a service that is starting. -/
theorem gc_inexact :
    ¬ Along sysStep (GcExact stopTimes) start (forgottenWeb ++ [.run 0 later])
      ∧ ¬ Along sysStep (GcExact stopTimes) start (restartedWeb ++ [.run 2 later]) := by
  constructor
  · intro h
    have hexact := exact_of_along h (by decide +kernel)
    have hbefore : manifestSays (run sysStep start forgottenWeb) = some (.stopped, some smooth.now) := by
      decide +kernel
    have hafter : (manifestSays (run sysStep start (forgottenWeb ++ [.run 0 later]))).isSome = true := by
      decide +kernel
    obtain ⟨manifest, hmanifest, hsays⟩ := Option.map_eq_some_iff.mp hbefore
    obtain ⟨hstate, hstopped⟩ := Prod.mk.inj hsays
    have hremoved := (hexact.persisted "dev-1" manifest (by decide +kernel) hmanifest).mpr
      ⟨hstate, smooth.now, 1735689600, hstopped, by decide, by decide⟩
    rw [manifestSays, hremoved.2] at hafter
    exact nomatch hafter
  · intro h
    have hexact := exact_of_along h (by decide +kernel)
    have hbefore : webState (run sysStep start restartedWeb) = some .starting := by decide +kernel
    obtain ⟨record, hrecord, hstarting⟩ := Option.map_eq_some_iff.mp hbefore
    obtain ⟨r, hr, hrecord⟩ := Option.bind_eq_some_iff.mp hrecord
    have hidle := hexact.idle "dev-1" r hr ⟨by decide +kernel, by decide +kernel⟩ "web" record hrecord
    rw [hstarting] at hidle
    exact nomatch hidle.1

end DevstackCollection
