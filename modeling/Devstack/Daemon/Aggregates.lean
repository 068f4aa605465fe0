import Devstack.Daemon.Effects
import Devstack.Daemon.System
import Devstack.Daemon.Successors

/-! # Aggregates — the state of a run and the states of its services

    The state of a run is written apart from its services' states.  Most locked steps
    recompute it, or change no state; the steps of a launch do not, until it comes to
    `finalize_run_launch`.

    * `Agg` says that a run's state is the aggregate of its services' states;
    * `Task.launches` is the run that a task is launching;
    * `plain_keeps` and `launch_goes_on`: a step keeps the aggregate, or there is a launch
      of the run in hand;
    * `aggregates_along`: so a run that is not being launched has its aggregate, and so
      does what a status request reports of it, whatever happens to the other runs. -/

namespace DevstackAggregates

open DevstackModel DevstackStores DevstackReadiness DevstackHealth DevstackConfig DevstackLaunch
open DevstackStatus
open DevstackLocked DevstackWorld DevstackTasks DevstackSystem DevstackEffects DevstackSuccessors
open DevstackInterleaving DevstackMachine

/-! ## The aggregate -/

/-- The state `recompute_run_state` computes for a run that is not stopped. -/
def aggregate (states : List ServiceState) : RunLifecycle := derivedRunState states .starting

/-- A run that is not stopped has the aggregate of its services' states. -/
def Agg (run : RunRecord) : Prop :=
  run.state ≠ .stopped → run.state = aggregate (serviceStates run.services)

instance (run : RunRecord) : Decidable (Agg run) := inferInstanceAs (Decidable (_ → _))

/-- So does a reported status, of the states it reports. -/
def StatusAgg (status : RunStatus) : Prop :=
  status.state ≠ .stopped →
    status.state = aggregate (status.services.toList.map (fun kv => kv.2.state))

/-- The states of two maps with the same states under every name. -/
theorem states_congr {α β : Type} {f : α → ServiceState} {g : β → ServiceState} {m : BTreeMap α}
    {m' : BTreeMap β} (h : ∀ name : String, (m[name]?).map f = (m'[name]?).map g) :
    m.toList.map (fun kv => f kv.2) = m'.toList.map (fun kv => g kv.2) := by
  have hmap : m.map (fun _ a => f a) = m'.map (fun _ b => g b) := by
    ext name : 1
    rw [Std.ExtTreeMap.getElem?_map, Std.ExtTreeMap.getElem?_map]
    exact h name
  have hlist := congrArg (fun m : BTreeMap ServiceState => m.toList.map Prod.snd) hmap
  simp only [Std.ExtTreeMap.toList_map, List.map_map] at hlist
  exact hlist

theorem serviceStates_congr {services services' : BTreeMap ServiceRecord}
    (h : ∀ name : String, (services'[name]?).map (·.runtime.state)
      = (services[name]?).map (·.runtime.state)) :
    serviceStates services' = serviceStates services := states_congr h

/-- A step that changes no state keeps the aggregate. -/
theorem Agg.of_states {run run' : RunRecord} (h : Agg run) (hstate : run'.state = run.state)
    (hstates : ∀ name : String, (run'.services[name]?).map (·.runtime.state)
      = (run.services[name]?).map (·.runtime.state)) : Agg run' := by
  intro hne
  rw [hstate] at hne ⊢
  rw [serviceStates_congr hstates]
  exact h hne

theorem agg_recompute (run : RunRecord) : Agg (recomputeRunState run).1 := by
  intro hne
  rw [recomputeRunState] at hne ⊢
  by_cases hstopped : run.state = .stopped
  · rw [if_pos hstopped] at hne
    exact absurd hstopped hne
  · rw [if_neg hstopped]
    rfl

theorem agg_updateAndRecompute (run : RunRecord) (service : String)
    (f : ServiceRecord → ServiceRecord × Option DaemonEvent) :
    Agg (updateAndRecompute run service f).1 := by
  rw [updateAndRecompute]
  split
  · exact agg_recompute _
  · exact agg_recompute run

/-! ## The locked steps -/

/-- The locked steps that may leave a run without its aggregate. -/
def recasts : RunOp → Bool
  | .store .. | .updateResources _ | .reconcile _ => true
  | _ => false

/-- The locked steps that change no state. -/
def isStateless : RunOp → Bool
  | .restarted .. | .compareHash .. | .syncWatcher _ | .keepWatcher .. | .syncCapture _
  | .keepCapture .. | .setWatchPaused .. | .applyPrepared .. | .stopHandles => true
  | _ => false

theorem stateless_keeps {op : RunOp} (h : isStateless op = true) (run : RunRecord) :
    (op.apply run).1.state = run.state
      ∧ ∀ name : String, ((op.apply run).1.services[name]?).map (·.runtime.state)
        = (run.services[name]?).map (·.runtime.state) := by
  constructor
  · cases op with
    | setWatchPaused service value =>
        cases service with
        | some service => exact updateService_state ..
        | none => rfl
    | stopHandles => rfl
    | restarted service now | compareHash service hash | syncWatcher service
    | keepWatcher service fresh | syncCapture service | keepCapture service fresh
    | applyPrepared service prepared => exact updateService_state ..
    | _ => exact nomatch h
  · intro name
    have hsame : ∀ service : String, (if name = service then
        (standingIn run name).map (fun standing => standing) else standingIn run name)
          = standingIn run name := by
      intro service
      rw [Option.map_id']
      exact ite_self _
    have hstanding : standingIn (op.apply run).1 name = standingIn run name := by
      rw [RunOp.standing_apply]
      cases op with
      | setWatchPaused service value => rfl
      | stopHandles => rfl
      | restarted service now | compareHash service hash | syncWatcher service
      | keepWatcher service fresh | syncCapture service | keepCapture service fresh
      | applyPrepared service prepared => exact hsame service
      | _ => exact nomatch h
    have hstate := congrArg (Option.map Prod.fst) hstanding
    rw [standingIn, standingIn, Option.map_map, Option.map_map] at hstate
    exact hstate

/-- **A LOCKED STEP** keeps the aggregate, unless it stores a record, wakes a run or writes
    a status back. -/
theorem agg_apply {op : RunOp} (h : recasts op = false) {run : RunRecord} (hagg : Agg run) :
    Agg (op.apply run).1 := by
  have hkeeps : isStateless op = true → Agg (op.apply run).1 := fun hop =>
    hagg.of_states (stateless_keeps hop run).1 (stateless_keeps hop run).2
  cases op with
  | beginRestart service now => exact agg_updateAndRecompute _ _ _
  | markReady service now fresh => exact agg_updateAndRecompute _ _ _
  | markFailed service now reason => exact agg_updateAndRecompute _ _ _
  | transition service now change =>
      cases change with
      | healthy => exact hagg
      | recoverToReady => exact agg_updateAndRecompute _ _ _
      | markDegraded => exact agg_updateAndRecompute _ _ _
  | removeMissing removed =>
      simp only [RunOp.apply, removeServicesMissingFromStack]
      split
      · exact hagg
      · exact agg_recompute _
  | recompute => exact agg_recompute run
  | stopAll now => exact fun hne => absurd rfl hne
  | store service record | updateResources baseEnv | reconcile status => cases h
  | restarted service now | compareHash service hash | syncWatcher service
  | keepWatcher service fresh | syncCapture service | keepCapture service fresh
  | applyPrepared service prepared | setWatchPaused service value | stopHandles => exact hkeeps rfl

/-! ## The status query -/

/-- The second fall-through of the aggregation differs in one case only. -/
theorem derivedRunState_cases (states : List ServiceState) (other : RunLifecycle) :
    derivedRunState states other = aggregate states
      ∨ derivedRunState states other = other ∧ aggregate states = .starting := by
  rw [aggregate, derivedRunState, derivedRunState]
  split
  · exact Or.inl rfl
  · split
    · exact Or.inl rfl
    · exact Or.inr ⟨rfl, rfl⟩

theorem aggregate_starting_iff {states : List ServiceState} :
    aggregate states = .starting
      ↔ (.degraded ∉ states ∧ .failed ∉ states) ∧ ∃ s ∈ states, s ≠ .ready := by
  constructor
  · intro h
    have hbad : ¬ (.degraded ∈ states ∨ .failed ∈ states) := by
      intro hbad
      rw [aggregate, derivedRunState_degraded hbad] at h
      exact nomatch h
    refine ⟨not_or.mp hbad, Classical.byContradiction fun hall => ?_⟩
    have hready : ∀ s ∈ states, s = .ready := fun s hs =>
      Classical.byContradiction fun hne => hall ⟨s, hs, hne⟩
    rw [aggregate, derivedRunState_running hready] at h
    exact nomatch h
  · rintro ⟨hbad, hne⟩
    exact derivedRunState_other hbad hne

/-- The unit-status rule keeps what is failing, and makes nothing else of a ready service
    than a degraded one. -/
theorem unitRule_state (runState : RunLifecycle) (unit : Option UnitStatus) (s : Standing) :
    (s.1 = .degraded → (unitRule runState unit s).1 = .degraded)
      ∧ (s.1 = .failed → (unitRule runState unit s).1 = .failed)
      ∧ (s.1 = .ready → (unitRule runState unit s).1 = .ready
        ∨ (unitRule runState unit s).1 = .degraded) := by
  obtain ⟨state, failure⟩ := s
  simp only [unitRule]
  split
  · split
    · cases state <;> simp [failingState]
    · exact ⟨id, id, Or.inl⟩
  · exact ⟨id, id, Or.inl⟩

/-- The states that are reported of a copy of a run. -/
def reportedStates (unitStatus : String → Option UnitStatus) (copy : RunRecord) :
    List ServiceState :=
  copy.services.toList.map (fun kv => (serviceStatus unitStatus copy.state kv.2).state)

theorem buildStatus_states (unitStatus : String → Option UnitStatus) (copy : RunRecord) :
    (buildStatus unitStatus copy).services.toList.map (fun kv => kv.2.state)
      = reportedStates unitStatus copy := by
  show ((copy.services.map (fun _ record => serviceStatus unitStatus copy.state record)).toList).map
    _ = _
  rw [Std.ExtTreeMap.toList_map, List.map_map]
  rfl

/-- **A REPORTED STATE** is the aggregate of the reported states, if the run that was read
    has its aggregate. -/
theorem statusAgg_buildStatus (unitStatus : String → Option UnitStatus) {copy : RunRecord}
    (h : Agg copy) : StatusAgg (buildStatus unitStatus copy) := by
  have hstate : (buildStatus unitStatus copy).state
      = derivedRunState (reportedStates unitStatus copy) copy.state := by
    rw [← buildStatus_states]
    rfl
  intro hne
  rw [buildStatus_states]
  obtain heq | ⟨hother, hstarting⟩ :=
    derivedRunState_cases (reportedStates unitStatus copy) copy.state
  · exact hstate.trans heq
  · -- nothing failing is reported, and something that is not ready: so it is of the copy
    rw [hstate, hother] at hne ⊢
    rw [hstarting, h hne]
    obtain ⟨⟨hdegraded, hfailed⟩, r, hr, hready⟩ := aggregate_starting_iff.mp hstarting
    obtain ⟨kv, hkv, rfl⟩ := List.mem_map.mp hr
    have hreported : ∀ kv ∈ copy.services.toList,
        (serviceStatus unitStatus copy.state kv.2).state ∈ reportedStates unitStatus copy :=
      fun kv hkv => List.mem_map.mpr ⟨kv, hkv, rfl⟩
    have hrule : ∀ kv : String × ServiceRecord, _ := fun kv =>
      unitRule_state copy.state (unitStatus kv.2.launch.unitName) (standing kv.2)
    refine aggregate_starting_iff.mpr ⟨⟨fun hmem => ?_, fun hmem => ?_⟩, ?_⟩
    · obtain ⟨kv, hkv, hstate⟩ := List.mem_map.mp hmem
      exact hdegraded ((hrule kv).1 hstate ▸ hreported kv hkv)
    · obtain ⟨kv, hkv, hstate⟩ := List.mem_map.mp hmem
      exact hfailed ((hrule kv).2.1 hstate ▸ hreported kv hkv)
    · refine ⟨kv.2.runtime.state, List.mem_map.mpr ⟨kv, hkv, rfl⟩, fun hstate => ?_⟩
      obtain hrule | hrule := (hrule kv).2.2 hstate
      · exact hready hrule
      · exact hdegraded (hrule ▸ hreported kv hkv)

/-- Two records of a run with the same services. -/
def SameServices (copy run : RunRecord) : Prop := copy.services.keys = run.services.keys

instance (copy run : RunRecord) : Decidable (SameServices copy run) :=
  inferInstanceAs (Decidable (_ = _))

/-- A status that is written into a run with the services it was read with gives it its
    aggregate. -/
theorem agg_reconcile (unitStatus : String → Option UnitStatus) {copy run : RunRecord}
    (h : Agg copy) (hsame : SameServices copy run) :
    Agg (DevstackStatus.reconcile (buildStatus unitStatus copy) run) := by
  have hstates : ∀ name : String,
      ((DevstackStatus.reconcile (buildStatus unitStatus copy) run).services[name]?).map
          (·.runtime.state)
        = ((buildStatus unitStatus copy).services[name]?).map (·.state) := by
    intro name
    have hname : name ∈ copy.services ↔ name ∈ run.services := by
      rw [← Std.ExtTreeMap.mem_keys, ← Std.ExtTreeMap.mem_keys, hsame]
    rw [Std.ExtTreeMap.mem_iff_isSome_getElem?, Std.ExtTreeMap.mem_iff_isSome_getElem?] at hname
    simp only [DevstackStatus.reconcile, buildStatus, Std.ExtTreeMap.getElem?_map]
    cases hcopy : copy.services[name]? with
    | none =>
        rw [hcopy] at hname
        cases hrun : run.services[name]? with
        | none => rfl
        | some record =>
            rw [hrun] at hname
            exact absurd (hname.mpr rfl) Bool.false_ne_true
    | some saved =>
        rw [hcopy] at hname
        cases hrun : run.services[name]? with
        | none =>
            rw [hrun] at hname
            exact absurd (hname.mp rfl) Bool.false_ne_true
        | some record => rfl
  intro hne
  have hstatus := statusAgg_buildStatus unitStatus h hne
  exact hstatus.trans (congrArg aggregate (states_congr hstates).symm)

/-! ## Launches -/

/-- The run that the code after a call is launching. -/
def contLaunches : Cont → Option String
  | .unchangedSynced job _ _ | .launchRest job _ | .launched job .. | .captured job .. =>
      some job.runId
  | _ => none

/-- The run that a task is launching: it has opened the run, and not finalized it. -/
def launches : Task → Option String
  | .launchNext job _ | .applyUnchanged job .. | .storeFailedInit job .. | .startUnit job ..
  | .storeResult job .. | .proxyFailed job .. | .handleReadiness job .. | .finalize job =>
      some job.runId
  | .syncWatcher _ _ k | .keepWatcher _ k | .syncCapture _ _ k | .keepCapture _ _ k =>
      contLaunches k
  | _ => none

/-- A run is being launched. -/
def Launching (tasks : List Task) (id : String) : Prop := ∃ t ∈ tasks, launches t = some id

instance (tasks : List Task) (id : String) : Decidable (Launching tasks id) :=
  inferInstanceAs (Decidable (∃ t ∈ tasks, _))

/-- A launch returns an error between two services: one cannot be prepared, or the port of
    its previous record cannot be released. -/
def endsEarly (env : Env) : Task → Bool
  | .launchNext job (name :: _) => (job.plan.services[name]?).isNone || !env.prepared.isOk
  | .startUnit job prepared name _ => releasesPrevious job.existing name prepared && !env.ports.isOk
  | _ => false

section Tasks

variable {env : Env} {w : World} {id : String}

/-- What a launch called returns to the launch. -/
theorem resume_launches {k : Cont} (h : contLaunches k = some id) (result : Except String Unit) :
    Launching (k.resume result) id := by
  cases k with
  | unchangedSynced job name rest => exact ⟨_, List.mem_singleton_self _, h⟩
  | launchRest job rest => exact ⟨_, List.mem_singleton_self _, h⟩
  | launched job prepared launch start name rest =>
      cases start with
      | ok u => exact ⟨_, List.mem_singleton_self _, h⟩
      | error err => exact ⟨_, List.mem_singleton_self _, h⟩
  | captured job launch name rest =>
      cases result with
      | ok u => exact ⟨_, List.mem_singleton_self _, h⟩
      | error err => exact ⟨_, List.mem_singleton_self _, h⟩
  | _ => exact nomatch h

/-- A run after a locked step is one from before, or the run of the step. -/
theorem runs_lock {id' : String} {op : RunOp} {run' : RunRecord}
    (h : (w.lock id' op).runs[id]? = some run') :
    ∃ run, w.runs[id]? = some run ∧ (run' = run ∨ id = id' ∧ run' = (op.apply run).1) := by
  rw [World.lock] at h
  cases hrun : w.runs[id']? with
  | none =>
      rw [hrun] at h
      exact ⟨run', h, Or.inl rfl⟩
  | some run =>
      rw [hrun] at h
      dsimp only at h
      rw [Std.ExtTreeMap.getElem?_insert] at h
      split at h
      · next heq =>
          obtain rfl := Std.LawfulEqCmp.eq_of_compare heq
          exact ⟨run, hrun, Or.inr ⟨rfl, (Option.some.inj h).symm⟩⟩
      · exact ⟨run', h, Or.inl rfl⟩

/-- A launch ends with the aggregate: by a recomputation. -/
theorem agg_lock (op : RunOp) (hop : ∀ run, Agg (op.apply run).1) {run' : RunRecord}
    (h : (w.lock id op).runs[id]? = some run') : Agg run' := by
  rw [World.lock] at h
  cases hrun : w.runs[id]? with
  | none =>
      rw [hrun] at h
      cases hrun.symm.trans h
  | some run =>
      rw [hrun] at h
      dsimp only at h
      rw [Std.ExtTreeMap.getElem?_insert_self] at h
      obtain rfl := Option.some.inj h
      exact hop run

/-- **A LAUNCH GOES ON**, or ends with the aggregate of its run, unless it ends early. -/
theorem launch_goes_on {t : Task} (ht : launches t = some id) (hearly : endsEarly env t = false)
    {run' : RunRecord} (hrun' : (t.step env w).1.runs[id]? = some run') :
    Launching (t.step env w).2 id ∨ Agg run' := by
  have hnext : ∀ {t' : Task}, launches t' = some id → Launching [t'] id :=
    fun h => ⟨_, List.mem_singleton_self _, h⟩
  cases t with
  | syncWatcher run service k =>
      simp only [Task.step]
      split
      · exact Or.inl (resume_launches ht _)
      · split
        · exact Or.inl (resume_launches ht _)
        · exact Or.inl (resume_launches ht _)
        · split
          · exact Or.inl (resume_launches ht _)
          · exact Or.inl ⟨_, List.mem_cons_self, ht⟩
  | keepWatcher t k =>
      simp only [Task.step]
      split
      · exact Or.inl (resume_launches ht _)
      · exact Or.inl (resume_launches ht _)
  | syncCapture run service k =>
      simp only [Task.step]
      split
      · exact Or.inl (resume_launches ht _)
      · split
        · exact Or.inl (hnext ht)
        · exact Or.inl (resume_launches ht _)
  | keepCapture run service k =>
      simp only [Task.step]
      split
      · exact Or.inl (resume_launches ht _)
      · exact Or.inl (resume_launches ht _)
      · split
        · exact Or.inl (resume_launches ht _)
        · exact Or.inl (resume_launches ht _)
  | launchNext job todo =>
      cases todo with
      | nil => exact Or.inl (hnext ht)
      | cons name rest =>
          simp only [endsEarly, Bool.or_eq_false_iff] at hearly
          cases hservice : job.plan.services[name]? with
          | none =>
              rw [hservice] at hearly
              cases hearly.1
          | some service =>
              cases hprepared : env.prepared with
              | error err =>
                  rw [hprepared] at hearly
                  cases hearly.2
              | ok prepared =>
                  simp only [Task.step, hservice, hprepared]
                  split
                  · exact Or.inl (hnext ht)
                  · split
                    · exact Or.inl (hnext ht)
                    · exact Or.inl (hnext ht)
  | startUnit job prepared name rest =>
      simp only [endsEarly, Bool.and_eq_false_iff, Bool.not_eq_false'] at hearly
      simp only [Task.step]
      split
      · next hreleases hports =>
          rw [hreleases, hports] at hearly
          exact hearly.elim (fun h => by cases h) (fun h => by cases h)
      · exact Or.inl (hnext ht)
  | applyUnchanged job prepared name rest =>
      obtain rfl := Option.some.inj ht
      simp only [Task.step] at hrun' ⊢
      cases hrun : w.runs[job.runId]? with
      | none =>
          rw [hrun] at hrun'
          cases hrun.symm.trans hrun'
      | some run => exact Or.inl (hnext rfl)
  | storeFailedInit job prepared error name rest =>
      obtain rfl := Option.some.inj ht
      simp only [Task.step] at hrun' ⊢
      cases hrun : w.runs[job.runId]? with
      | none =>
          rw [hrun] at hrun'
          cases hrun.symm.trans hrun'
      | some run => exact Or.inl (hnext rfl)
  | storeResult job prepared launch start name rest =>
      obtain rfl := Option.some.inj ht
      simp only [Task.step] at hrun' ⊢
      cases hrun : w.runs[job.runId]? with
      | none =>
          rw [hrun] at hrun'
          cases hrun.symm.trans hrun'
      | some run => exact Or.inl (hnext rfl)
  | proxyFailed job launch name reason =>
      obtain rfl := Option.some.inj ht
      simp only [Task.step] at hrun'
      cases hrun : w.runs[job.runId]? with
      | none =>
          rw [hrun] at hrun'
          cases hrun.symm.trans hrun'
      | some run =>
          rw [hrun] at hrun'
          exact Or.inr (agg_lock (.markFailed name env.now reason)
            (fun run => agg_updateAndRecompute _ _ _) hrun')
  | handleReadiness job launch name rest =>
      obtain rfl := Option.some.inj ht
      simp only [Task.step] at hrun' ⊢
      cases hwait : job.noWait with
      | true => exact Or.inl ⟨_, List.mem_cons_self, rfl⟩
      | false =>
          rw [hwait] at hrun'
          cases hrun : w.runs[job.runId]? with
          | none =>
              rw [hrun] at hrun'
              cases hrun.symm.trans hrun'
          | some run =>
              rw [hrun] at hrun'
              cases hready : env.readiness with
              | ok u => exact Or.inl ⟨_, List.mem_cons_self, rfl⟩
              | error err =>
                  rw [hready] at hrun'
                  exact Or.inr (agg_lock (.markFailed name env.now err)
                    (fun run => agg_updateAndRecompute _ _ _) hrun')
  | finalize job =>
      obtain rfl := Option.some.inj ht
      simp only [Task.step] at hrun'
      cases hrun : w.runs[job.runId]? with
      | none =>
          rw [hrun] at hrun'
          cases hrun.symm.trans hrun'
      | some run =>
          rw [hrun] at hrun'
          exact Or.inr (agg_lock .recompute agg_recompute hrun')
  | _ => cases ht

/-- The accesses that keep the aggregate of every run. -/
def keepsAgg : Effect → Bool
  | .lock _ op => !recasts op
  | .createRun _ => false
  | _ => true

/-- A run after a step is one from before, and has its aggregate if that had it. -/
def Inherits (w w' : World) : Prop :=
  ∀ (id : String) (run' : RunRecord), w'.runs[id]? = some run' →
    ∃ run, w.runs[id]? = some run ∧ (Agg run → Agg run')

theorem Inherits.of_runs {w w' : World} (h : w'.runs = w.runs) : Inherits w w' := by
  intro id run' hrun'
  rw [h] at hrun'
  exact ⟨run', hrun', fun hagg => hagg⟩

theorem inherits_apply {e : Effect} (he : keepsAgg e = true) : Inherits w (e.apply w) := by
  cases e with
  | lock id op =>
      simp only [keepsAgg, Bool.not_eq_true'] at he
      intro id' run' hrun'
      obtain ⟨run, hrun, rfl | ⟨-, rfl⟩⟩ := runs_lock hrun'
      · exact ⟨run', hrun, fun hagg => hagg⟩
      · exact ⟨run, hrun, agg_apply he⟩
  | createRun run => exact nomatch he
  | purge id =>
      intro id' run' hrun'
      change (w.runs.erase id)[id']? = some run' at hrun'
      rw [Std.ExtTreeMap.getElem?_erase] at hrun'
      split at hrun'
      · exact nomatch hrun'
      · exact ⟨run', hrun', fun hagg => hagg⟩
  | collect expired =>
      intro id' run' hrun'
      simp only [Effect.apply, Std.ExtTreeMap.getElem?_filter'] at hrun'
      exact ⟨run', (Option.filter_eq_some_iff.mp hrun').1, fun hagg => hagg⟩
  | lockGlobal key op =>
      refine Inherits.of_runs ?_
      simp only [Effect.apply, World.lockGlobal]
      split <;> rfl
  | upsertGlobal global | raise handle | storePaused handle value | allocate
  | unit action owner unitName | beginLaunch key | writeManifest manifest
  | writeGlobalManifest manifest | serve => exact Inherits.of_runs rfl

theorem inherits_effects {es : List Effect} (hes : ∀ e ∈ es, keepsAgg e = true) :
    Inherits w (es.foldl Effect.apply w) := by
  induction es generalizing w with
  | nil => exact Inherits.of_runs rfl
  | cons e es ih =>
      intro id run'' hrun''
      obtain ⟨run', hrun', hagg'⟩ := ih (fun e' he' => hes e' (List.mem_cons_of_mem e he')) id run''
        hrun''
      obtain ⟨run, hrun, hagg⟩ := inherits_apply (hes e List.mem_cons_self) id run' hrun'
      exact ⟨run, hrun, fun h => hagg' (hagg h)⟩

theorem keepsAgg_deliver {run service now : String} {result : Except String Unit} {e : Effect}
    (h : e ∈ deliverEffects w run service now result) : keepsAgg e = true := by
  rcases mem_deliver h with ⟨handle, rfl⟩ | ⟨reason, rfl⟩ | rfl <;> rfl

/-- The tasks that open a run, store a record or write a status back. -/
def writesStates : Task → Bool
  | .openRun _ | .storeFailedInit .. | .storeResult .. | .writeStatus .. => true
  | _ => false

theorem keepsAgg_of_makes {t : Task} {e : Effect} (h : Makes env w t e)
    (ht : writesStates t = false) : keepsAgg e = true := by
  cases h with
  | aside t h => cases e <;> first | rfl | exact nomatch h
  | waitRestart r h | waitReadiness run service launch h | handleReadiness job launch name rest h =>
      exact keepsAgg_deliver h
  | openRun job baseEnv | createRun job baseEnv hfree | storeFailedInit job prepared error name rest
  | storeResult job prepared launch start name rest | writeStatus run copy k => exact nomatch ht
  | _ => rfl

/-- **ANY OTHER STEP** keeps the aggregate of every run. -/
theorem plain_keeps {t : Task} (ht : writesStates t = false) : Inherits w (t.step env w).1 := by
  rw [step_world]
  exact inherits_effects (fun e he => keepsAgg_of_makes (makes_of_mem he) ht)

/-- A locked step of a launch on its run. -/
theorem lock_launch {id' : String} {op : RunOp} {tasks : List Task} (h : Launching tasks id')
    {run' : RunRecord} (hrun' : (w.lock id' op).runs[id]? = some run') :
    Launching tasks id ∨ ∃ run, w.runs[id]? = some run ∧ (Agg run → Agg run') := by
  obtain ⟨run, hrun, rfl | ⟨rfl, -⟩⟩ := runs_lock hrun'
  · exact Or.inr ⟨run', hrun, fun hagg => hagg⟩
  · exact Or.inl h

/-- A step that opens a run or stores a record belongs to a launch of it. -/
theorem launch_keeps {t : Task} (ht : ∀ run copy k, t ≠ .writeStatus run copy k)
    {run' : RunRecord} (hrun' : (t.step env w).1.runs[id]? = some run') :
    Launching (t.step env w).2 id ∨ ∃ run, w.runs[id]? = some run ∧ (Agg run → Agg run') := by
  by_cases hwrites : writesStates t = false
  · exact Or.inr (plain_keeps hwrites id run' hrun')
  · cases t with
    | openRun job =>
        simp only [Task.step] at hrun' ⊢
        have hnext : Launching [.launchNext job job.plan.order] job.runId :=
          ⟨_, List.mem_singleton_self _, rfl⟩
        cases hbase : env.baseEnv with
        | error err =>
            rw [hbase] at hrun'
            exact Or.inr ⟨run', hrun', fun hagg => hagg⟩
        | ok baseEnv =>
            cases hrun : w.runs[job.runId]? with
            | some run =>
                cases hcreates : job.creates with
                | true =>
                    simp only [hbase, hrun, hcreates, if_true] at hrun'
                    exact Or.inr ⟨run', hrun', fun hagg => hagg⟩
                | false =>
                    simp only [hbase, hrun, hcreates, Bool.false_eq_true, if_false] at hrun'
                    exact lock_launch hnext hrun'
            | none =>
                cases hcreates : job.creates with
                | false =>
                    simp only [hbase, hrun, hcreates, Bool.false_eq_true, if_false] at hrun'
                    exact Or.inr ⟨run', hrun', fun hagg => hagg⟩
                | true =>
                    simp only [hbase, hrun, hcreates, if_true, World.createRun,
                      Std.ExtTreeMap.getElem?_insert] at hrun'
                    split at hrun'
                    · next heq =>
                        have hid : job.runId = id := Std.LawfulEqCmp.eq_of_compare heq
                        exact Or.inl (hid ▸ hnext)
                    · exact Or.inr ⟨run', hrun', fun hagg => hagg⟩
    | storeFailedInit job prepared error name rest =>
        simp only [Task.step] at hrun' ⊢
        cases hrun : w.runs[job.runId]? with
        | none =>
            rw [hrun] at hrun'
            exact Or.inr ⟨run', hrun', fun hagg => hagg⟩
        | some run =>
            rw [hrun] at hrun'
            exact lock_launch ⟨_, List.mem_singleton_self _, rfl⟩ hrun'
    | storeResult job prepared launch start name rest =>
        simp only [Task.step] at hrun' ⊢
        cases hrun : w.runs[job.runId]? with
        | none =>
            rw [hrun] at hrun'
            exact Or.inr ⟨run', hrun', fun hagg => hagg⟩
        | some run =>
            rw [hrun] at hrun'
            exact lock_launch ⟨_, List.mem_singleton_self _, rfl⟩ hrun'
    | writeStatus run copy k => exact absurd rfl (ht run copy k)
    | _ => exact absurd rfl hwrites

end Tasks

/-! ## Runs of the daemon -/

/-- A manifest that is not of a stopped run has the aggregate of its services' states. -/
def ManifestAgg (manifest : PersistedRun) : Prop :=
  manifest.state ≠ .stopped →
    manifest.state = aggregate (manifest.services.toList.map (fun kv => kv.2.state))

instance (manifest : PersistedRun) : Decidable (ManifestAgg manifest) :=
  inferInstanceAs (Decidable (_ → _))

/-- Every service of a manifest is prepared again. -/
def RestoresAll (answers : RestoreAnswers) (manifest : PersistedRun) : Prop :=
  ∀ prepared ∈ answers.runPrepared manifest.runId, ∀ kv ∈ manifest.services.toList,
    (prepared kv.1).isSome = true

instance (answers : RestoreAnswers) (manifest : PersistedRun) :
    Decidable (RestoresAll answers manifest) :=
  inferInstanceAs (Decidable (∀ prepared ∈ answers.runPrepared manifest.runId, _))

/-- The run a task writes a status into, and the copy the status is built of. -/
def writtenStatus : Task → Option (String × RunRecord)
  | .writeStatus id copy _ => some (id, copy)
  | _ => none

/-- A status of the run that was read in the middle of a launch, or with other services, is
    not written back after it. -/
def WritesCurrent (id : String) (s : Sys) (t : Task) : Prop :=
  ∀ written ∈ writtenStatus t, written.1 = id → Launching s.2 id
    ∨ ∀ run ∈ s.1.runs[id]?, Agg written.2 ∧ SameServices written.2 run

instance (id : String) (s : Sys) (t : Task) : Decidable (WritesCurrent id s t) :=
  inferInstanceAs (Decidable (∀ written ∈ writtenStatus t, _))

/-- The condition on the steps, for a run: no launch of it returns an error between two
    services, no status of it is written back that is not current, and a manifest of it that
    is restored has its aggregate. -/
def Aligned (id : String) (s : Sys) : Action → Prop
  | .request _ => True
  | .run position env => ∀ t ∈ s.2[position]?,
      (launches t = some id → endsEarly env t = false) ∧ WritesCurrent id s t
  | .daemonRestart answers => ∀ manifest ∈ s.1.manifests[id]?,
      ManifestAgg manifest ∧ RestoresAll answers manifest

instance (id : String) (s : Sys) : (a : Action) → Decidable (Aligned id s a)
  | .request _ => .isTrue trivial
  | .run position _ => inferInstanceAs (Decidable (∀ t ∈ s.2[position]?, _))
  | .daemonRestart _ => inferInstanceAs (Decidable (∀ manifest ∈ s.1.manifests[id]?, _))

/-- The run has its aggregate, if it is not being launched. -/
def Aggregated (id : String) (s : Sys) : Prop :=
  ∀ run, s.1.runs[id]? = some run → ¬ Launching s.2 id → Agg run

/-- A status request that reads the run when it is not being launched reports the aggregate
    of the states it reports. -/
def Reports (id : String) (s : Sys) : Action → Prop
  | .run position _ => ∀ k, s.2[position]? = some (.status id k) →
      ∀ run, s.1.runs[id]? = some run → ¬ Launching s.2 id →
        ∀ unitStatus, StatusAgg (buildStatus unitStatus run)
  | _ => True

theorem restoreRun_agg {answers : RestoreAnswers} {manifest : PersistedRun} {run : RunRecord}
    (hagg : ManifestAgg manifest) (hall : RestoresAll answers manifest)
    (h : restoreRun answers manifest = some run) : Agg run := by
  rw [restoreRun] at h
  split at h
  · obtain ⟨prepared, hprepared, rfl⟩ := Option.map_eq_some_iff.mp h
    intro hne
    refine (hagg hne).trans (congrArg aggregate ?_)
    refine states_congr (g := fun record : ServiceRecord => record.runtime.state) fun name => ?_
    rw [Std.ExtTreeMap.getElem?_filterMap']
    cases hsaved : manifest.services[name]? with
    | none => rfl
    | some saved =>
        have hmem : (name, saved) ∈ manifest.services.toList :=
          Std.ExtTreeMap.mem_toList_iff_getElem?_eq_some.mpr hsaved
        obtain ⟨p, hp⟩ := Option.isSome_iff_exists.mp (hall prepared hprepared _ hmem)
        rw [Option.bind_some, hp]
        rfl
  · exact nomatch h

/-- A status is written into its run, with the aggregate, or leaves a run alone. -/
theorem agg_writeStatus {env : Env} {w : World} {id id' : String} {copy : RunRecord} {k : Cont}
    {run' : RunRecord} (hcopy : id = id' → ∀ run, w.runs[id']? = some run →
      Agg copy ∧ SameServices copy run)
    (hrun' : ((Task.writeStatus id' copy k).step env w).1.runs[id]? = some run') :
    w.runs[id]? = some run' ∨ Agg run' := by
  simp only [Task.step] at hrun'
  cases hrun : w.runs[id']? with
  | none =>
      rw [hrun] at hrun'
      exact Or.inl hrun'
  | some run =>
      rw [hrun] at hrun'
      obtain ⟨old, hold, rfl | ⟨rfl, rfl⟩⟩ := runs_lock hrun'
      · exact Or.inl hold
      · obtain ⟨hagg, hsame⟩ := hcopy rfl old hold
        exact Or.inr (agg_reconcile env.unitStatus hagg hsame)

/-- **ONE STEP** of a task. -/
theorem aggregated_stepAt {id : String} {s : Sys} {position : Nat} {env : Env} {t : Task}
    (ht : s.2[position]? = some t) (hok : Aligned id s (.run position env))
    (hs : Aggregated id s) : Aggregated id (stepAt Task.step s (position, env)) := by
  obtain ⟨hearly, hstatus⟩ := hok t ht
  intro run' hrun' hidle
  rw [stepAt_some Task.step ht] at hrun'
  have hnext : ¬ Launching (t.step env s.1).2 id := fun ⟨t', ht', hl⟩ =>
    hidle ⟨t', (mem_stepAt_iff Task.step ht).mpr (Or.inl ht'), hl⟩
  by_cases hlaunches : launches t = some id
  · exact (launch_goes_on hlaunches (hearly hlaunches) hrun').resolve_left hnext
  · -- neither did the task before: nobody launches the run
    have hbefore : ¬ Launching s.2 id := by
      rintro ⟨t', ht', hl⟩
      rcases (mem_iff_eraseIdx ht).mp ht' with rfl | ht'
      · exact hlaunches hl
      · exact hidle ⟨t', (mem_stepAt_iff Task.step ht).mpr (Or.inr ht'), hl⟩
    have hinherit : (∃ run, s.1.runs[id]? = some run ∧ (Agg run → Agg run')) → Agg run' :=
      fun ⟨run, hrun, hagg⟩ => hagg (hs run hrun hbefore)
    by_cases hwrite : ∃ id' copy k, t = .writeStatus id' copy k
    · obtain ⟨id', copy, k, rfl⟩ := hwrite
      have hcopy : id = id' → ∀ run, s.1.runs[id']? = some run →
          Agg copy ∧ SameServices copy run := by
        rintro rfl
        exact (hstatus (id, copy) rfl rfl).resolve_left hbefore
      obtain hsame | hagg := agg_writeStatus hcopy hrun'
      · exact hs run' hsame hbefore
      · exact hagg
    · have hne : ∀ id' copy k, t ≠ .writeStatus id' copy k :=
        fun id' copy k heq => hwrite ⟨id', copy, k, heq⟩
      exact hinherit ((launch_keeps hne hrun').resolve_left hnext)

theorem aggregated_sysStep {id : String} {s : Sys} {a : Action} (hs : Aggregated id s)
    (hok : Aligned id s a) : Aggregated id (sysStep s a) := by
  cases a with
  | request request =>
      simp only [sysStep]
      split
      · intro run hrun hidle
        exact hs run hrun (fun ⟨t, ht, hl⟩ => hidle ⟨t, List.mem_append_left _ ht, hl⟩)
      · exact hs
  | run position env =>
      simp only [sysStep]
      cases ht : s.2[position]? with
      | none =>
          rw [stepAt_none Task.step ht]
          exact hs
      | some t => exact aggregated_stepAt ht hok hs
  | daemonRestart answers =>
      intro run hrun _
      simp only [sysStep, restartDaemon, Std.ExtTreeMap.getElem?_filterMap'] at hrun
      obtain ⟨manifest, hmanifest, hrestored⟩ := Option.bind_eq_some_iff.mp hrun
      obtain ⟨hagg, hall⟩ := hok manifest hmanifest
      exact restoreRun_agg hagg hall hrestored

/-- **AGGREGATES**: in every state reached a run that is not being launched has the
    aggregate of its services' states, and so has what a status request reports of it.  The
    condition is on the run alone. -/
theorem aggregates_along (id : String) (as : List Action)
    (h : Along sysStep (Aligned id) start as) :
    Along sysStep (fun s a => Reports id s a ∧ Aggregated id (sysStep s a)) start as := by
  have hstep : ∀ (s : Sys) (a : Action), Aggregated id s → Aligned id s a →
      Aggregated id (sysStep s a) :=
    fun s a hs hok => aggregated_sysStep hs hok
  have hreports : ∀ (s : Sys) (a : Action), Aggregated id s → Reports id s a := by
    intro s a hs
    cases a with
    | run position env =>
        intro k _ run hrun hidle unitStatus
        exact statusAgg_buildStatus unitStatus (hs run hrun hidle)
    | _ => trivial
  exact along_of_guarded sysStep hstep (fun s a hs hok => ⟨hreports s a hs, hstep s a hs hok⟩) as
    start (fun run hrun => (nomatch hrun)) h

-- ── a stack with two services ─────────────────────────────────────────────────

def pairServices : BTreeMap ServiceConfig :=
  webServices.insert "api" (ServiceConfig.ofCmd "serve" [])

theorem topoSort_pairServices : topoSort pairServices = .ok ["api", "web"] := by decide

def pairPlan : StackPlan where
  name := "dev"
  services := pairServices
  order := ["api", "web"]
  depsFirst := (topoSort_depsFirst topoSort_pairServices).1
  nodup := (topoSort_depsFirst topoSort_pairServices).2.1

/-- Every call succeeds; `name` is what is prepared. -/
def prepares (name : String) : Env :=
  { smooth with
    prepared := .ok (.plain name "serve" [])
    requested := .ok (pairPlan, "/app", []) }

/-- `up` of the stack, and as many steps of it. -/
def upPair (noWait : Bool) (env : Env) (steps : Nat) : List Action :=
  .request (.up ⟨"dev", "/app", none, noWait, false, false⟩) :: List.replicate steps (.run 0 env)

/-- As many steps of the task at a position, with `web` prepared. -/
def webAt (position steps : Nat) : List Action :=
  List.replicate steps (.run position (prepares "web"))

def restoresPair : RestoreAnswers where
  pathExists _ := true
  runPrepared _ := some (fun name => some (.plain name "serve" []))
  globalPrepared _ := none

/-- The stack comes up, a status request is served, and the daemon restarts. -/
def upStatusRestart : List Action :=
  upPair false (prepares "api") 12 ++ webAt 0 8
    ++ .request (.status "dev-1") :: webAt 2 1 ++ webAt 2 1
    ++ .daemonRestart restoresPair :: webAt 0 3

theorem upStatusRestart_aggregates :
    Along sysStep (fun s a => Reports "dev-1" s a ∧ Aggregated "dev-1" (sysStep s a)) start
      upStatusRestart :=
  aggregates_along "dev-1" upStatusRestart (by decide +kernel)

/-- `api` does not start. -/
def apiFails : List Action := upPair false { prepares "api" with unit := .error "start failed" } 7

/-- `api` does not start and `web` cannot be prepared. -/
def launchEndsEarly : List Action :=
  apiFails ++ [.run 0 { prepares "web" with prepared := .error "no such file" }]

/-- `api` is ready when `web` is started. -/
def apiReady : List Action := upPair false (prepares "api") 12

/-- A status is read then, and written when the launch is over. -/
def writtenLate : List Action :=
  apiReady ++ .request (.status "dev-1") :: webAt 2 1 ++ webAt 0 5 ++ webAt 3 1

/-- The manifest is written then, and the daemon restarts. -/
def restoredInLaunch : List Action :=
  upPair true (prepares "api") 9 ++ webAt 1 1 ++ webAt 0 3 ++ webAt 1 2
    ++ [.daemonRestart restoresPair]

/-- The state of the run, and what `recompute_run_state` makes of it. -/
def stateAndAggregate (as : List Action) : Option (RunLifecycle × RunLifecycle) :=
  ((run sysStep start as).1.runs["dev-1"]?).map (fun r => (r.state, (recomputeRunState r).1.state))

/-- The state a status request reports, and the aggregate of what it reports. -/
def reportedAndAggregate (as : List Action) : Option (RunLifecycle × RunLifecycle) :=
  ((run sysStep start as).1.runs["dev-1"]?).map (fun r =>
    ((buildStatus (fun _ => none) r).state, aggregate (reportedStates (fun _ => none) r)))

/-- In the middle of a launch, and after one that returns an error between two services, the
    state of the run is not the aggregate, and what is reported of it need not be. -/
theorem unaggregated :
    (stateAndAggregate apiFails = some (.starting, .degraded)
        ∧ Launching (run sysStep start apiFails).2 "dev-1")
      ∧ (stateAndAggregate launchEndsEarly = some (.starting, .degraded)
        ∧ (run sysStep start launchEndsEarly).2.isEmpty = true)
      ∧ reportedAndAggregate apiReady = some (.running, .starting)
      ∧ (stateAndAggregate writtenLate = some (.running, .starting)
        ∧ ¬ Launching (run sysStep start writtenLate).2 "dev-1")
      ∧ (stateAndAggregate restoredInLaunch = some (.running, .starting)
        ∧ ¬ Launching (run sysStep start restoredInLaunch).2 "dev-1") := by
  decide +kernel

end DevstackAggregates
