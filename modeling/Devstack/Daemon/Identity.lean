import Devstack.Daemon.Effects
import Devstack.Daemon.System

/-! # Identity — what a step keeps of a run

    A run keeps its id, its project and its stack for as long as it exists, and few
    operations stop or wake it: `down` and `kill`, a status request, a refresh.  A
    run's id is its key in the store. -/

namespace DevstackIdentity

open DevstackModel DevstackStores DevstackHealth DevstackConfig DevstackLaunch DevstackStatus
open DevstackLocked DevstackWorld DevstackTasks DevstackSystem DevstackEffects
open DevstackInterleaving DevstackMachine

/-- The same run, as far as its id, its project and its stack go. -/
structure SameRun (run run' : RunRecord) : Prop where
  runId : run'.runId = run.runId
  projectDir : run'.projectDir = run.projectDir
  stack : run'.stack = run.stack

theorem SameRun.refl (run : RunRecord) : SameRun run run := ⟨rfl, rfl, rfl⟩

/-- Two changes that keep a run are one. -/
theorem SameRun.trans {run run' run'' : RunRecord} (h : SameRun run run')
    (h' : SameRun run' run'') : SameRun run run'' :=
  ⟨h'.runId.trans h.runId, h'.projectDir.trans h.projectDir, h'.stack.trans h.stack⟩

section Ops

variable (run : RunRecord)

/-- A change of the services keeps the run. -/
theorem sameRun_services (services : BTreeMap ServiceRecord) :
    SameRun run { run with services := services } := ⟨rfl, rfl, rfl⟩

/-- So does its new state. -/
theorem sameRun_recompute : SameRun run (recomputeRunState run).1 := by
  rw [recomputeRunState]
  split
  · exact SameRun.refl run
  · exact ⟨rfl, rfl, rfl⟩

/-- And the change of a service with the state after it. -/
theorem sameRun_updateAndRecompute (service : String)
    (f : ServiceRecord → ServiceRecord × Option DaemonEvent) :
    SameRun run (updateAndRecompute run service f).1 := by
  rw [updateAndRecompute]
  split
  · exact (sameRun_services run _).trans (sameRun_recompute _)
  · exact sameRun_recompute run

/-- `update_service` writes the services only. -/
theorem sameRun_updateService (service : String)
    (f : ServiceRecord → ServiceRecord × List HandleId) :
    SameRun run (updateService run service f).1 := by
  rw [updateService]
  split
  · exact ⟨rfl, rfl, rfl⟩
  · exact SameRun.refl run

/-- Every locked step is a step on the same run. -/
theorem sameRun_apply (op : RunOp) : SameRun run (op.apply run).1 := by
  cases op with
  | beginRestart service now => exact sameRun_updateAndRecompute ..
  | markReady service now fresh => exact sameRun_updateAndRecompute ..
  | markFailed service now reason => exact sameRun_updateAndRecompute ..
  | transition service now change =>
      cases change with
      | healthy => exact SameRun.refl run
      | recoverToReady => exact sameRun_updateAndRecompute ..
      | markDegraded => exact sameRun_updateAndRecompute ..
  | restarted service now | compareHash service hash | syncWatcher service
  | keepWatcher service fresh | syncCapture service | keepCapture service fresh
  | applyPrepared service prepared => exact sameRun_updateService ..
  | setWatchPaused service value =>
      cases service with
      | some service => exact sameRun_updateService ..
      | none => exact ⟨rfl, rfl, rfl⟩
  | store service record => exact ⟨rfl, rfl, rfl⟩
  | removeMissing removed =>
      simp only [RunOp.apply, removeServicesMissingFromStack]
      split
      · exact SameRun.refl run
      · exact (sameRun_services run _).trans (sameRun_recompute _)
  | updateResources baseEnv =>
      simp only [RunOp.apply, updateRunLaunchResources]
      split
      · exact ⟨rfl, rfl, rfl⟩
      · exact ⟨rfl, rfl, rfl⟩
  | recompute => exact sameRun_recompute run
  | stopHandles | stopAll now | reconcile status => exact ⟨rfl, rfl, rfl⟩

/-- Operations that neither stop a run nor wake one. -/
def keepsStopped : RunOp → Bool
  | .updateResources _ | .stopAll _ | .reconcile _ => false
  | _ => true

/-- The other operations neither stop a run nor wake one. -/
theorem stopped_apply {op : RunOp} (h : keepsStopped op = true) :
    (op.apply run).1.state = .stopped ↔ run.state = .stopped := by
  cases op with
  | beginRestart service now => exact updateAndRecompute_state_stopped ..
  | markReady service now fresh => exact updateAndRecompute_state_stopped ..
  | markFailed service now reason => exact updateAndRecompute_state_stopped ..
  | transition service now change =>
      cases change with
      | healthy => exact Iff.rfl
      | recoverToReady => exact updateAndRecompute_state_stopped ..
      | markDegraded => exact updateAndRecompute_state_stopped ..
  | restarted service now | compareHash service hash | syncWatcher service
  | keepWatcher service fresh | syncCapture service | keepCapture service fresh
  | applyPrepared service prepared =>
      simp only [RunOp.apply, updateService_state]
  | setWatchPaused service value =>
      cases service with
      | some service => simp only [RunOp.apply, updateService_state]
      | none => exact Iff.rfl
  | store service record => exact Iff.rfl
  | removeMissing removed =>
      simp only [RunOp.apply, removeServicesMissingFromStack]
      split
      · exact Iff.rfl
      · exact recomputeRunState_state_stopped _
  | recompute => exact recomputeRunState_state_stopped run
  | stopHandles => exact Iff.rfl
  | updateResources baseEnv | stopAll now | reconcile status => cases h

/-- What a run is looked up by, and whether it is stopped. -/
def profile (run : RunRecord) : String × String × String × Bool :=
  (run.runId, run.projectDir, run.stack, decide (run.state = .stopped))

/-- Nor do they change anything else that tells runs apart. -/
theorem profile_apply {op : RunOp} (h : keepsStopped op = true) :
    profile (op.apply run).1 = profile run := by
  obtain ⟨hid, hdir, hstack⟩ := sameRun_apply run op
  rw [profile, hid, hdir, hstack, decide_eq_decide.mpr (stopped_apply run h)]
  rfl

/-- A refresh wakes no run that is not stopped. -/
theorem profile_updateResources (baseEnv : BTreeMap String) (h : run.state ≠ .stopped) :
    profile (updateRunLaunchResources run baseEnv) = profile run := by
  rw [updateRunLaunchResources, if_neg h]
  rfl

end Ops

/-! ## The same runs -/

/-- Two worlds with the same runs, as far as their profiles go. -/
def Alike (w w' : World) : Prop :=
  ∀ id : String, (w'.runs[id]?).map profile = (w.runs[id]?).map profile

theorem Alike.refl (w : World) : Alike w w := fun _ => rfl

theorem Alike.trans {w w' w'' : World} (h : Alike w w') (h' : Alike w' w'') : Alike w w'' :=
  fun id => (h' id).trans (h id)

theorem Alike.of_runs {w w' : World} (h : w'.runs = w.runs) : Alike w w' := by
  intro id
  rw [h]

/-- A locked step leaves the other runs as they are. -/
theorem Alike.lock {w : World} {id : String} {op : RunOp}
    (h : ∀ run, w.runs[id]? = some run → profile (op.apply run).1 = profile run) :
    Alike w (w.lock id op) := by
  intro id'
  rw [World.lock]
  cases hget : w.runs[id]? with
  | none => rfl
  | some run =>
      show ((w.runs.insert id (op.apply run).1)[id']?).map profile = _
      rw [Std.ExtTreeMap.getElem?_insert]
      split
      · next heq =>
          rw [← Std.LawfulEqCmp.eq_of_compare heq, hget, Option.map_some, Option.map_some,
            h run hget]
      · rfl

/-- Accesses that make, remove, stop and wake no run. -/
def tame : Effect → Bool
  | .lock _ op => keepsStopped op
  | .createRun _ | .purge _ | .collect _ => false
  | _ => true

/-- A tame access leaves every run like itself. -/
theorem alike_apply (w : World) {e : Effect} (h : tame e = true) : Alike w (e.apply w) := by
  cases e with
  | lock id op => exact Alike.lock (fun run _ => profile_apply run h)
  | lockGlobal key op =>
      refine Alike.of_runs ?_
      simp only [Effect.apply, World.lockGlobal]
      split <;> rfl
  | createRun run | purge id | collect expired => cases h
  | upsertGlobal global | raise handle | storePaused handle value | allocate
  | unit action owner unitName | beginLaunch key | writeManifest manifest
  | writeGlobalManifest manifest | serve => exact Alike.of_runs rfl

/-- So do several. -/
theorem alike_effects {es : List Effect} (h : ∀ e ∈ es, tame e = true) (w : World) :
    Alike w (es.foldl Effect.apply w) := by
  induction es generalizing w with
  | nil => exact Alike.refl w
  | cons e es ih =>
      exact (alike_apply w (h e (List.mem_cons_self ..))).trans
        (ih (fun e' he' => h e' (List.mem_cons_of_mem _ he')) _)

/-! ## Run ids are keys -/

/-- Every run and every manifest is stored under its own id. -/
structure Keyed (w : World) : Prop where
  runs : ∀ (id : String) (run : RunRecord), w.runs[id]? = some run → run.runId = id
  manifests : ∀ (id : String) (manifest : PersistedRun),
    w.manifests[id]? = some manifest → manifest.runId = id

/-- Where the stores are the same, so are the keys. -/
theorem Keyed.of_same {w w' : World} (h : Keyed w) (hruns : w'.runs = w.runs)
    (hmanifests : w'.manifests = w.manifests) : Keyed w' :=
  ⟨hruns ▸ h.runs, hmanifests ▸ h.manifests⟩

/-- **NO ACCESS STORES A RUN UNDER ANOTHER KEY.** -/
theorem keyed_apply {w : World} (h : Keyed w) (e : Effect) : Keyed (e.apply w) := by
  cases e with
  | lock id op =>
      simp only [Effect.apply, World.lock]
      cases hget : w.runs[id]? with
      | none => exact h
      | some run =>
          refine ⟨fun id' run' hget' => ?_, h.manifests⟩
          rw [Std.ExtTreeMap.getElem?_insert] at hget'
          split at hget'
          · next heq =>
              cases hget'
              rw [(sameRun_apply run op).runId, h.runs id run hget]
              exact Std.LawfulEqCmp.eq_of_compare heq
          · exact h.runs id' run' hget'
  | createRun run =>
      refine ⟨fun id' run' hget' => ?_, h.manifests⟩
      rw [show ((Effect.createRun run).apply w).runs = w.runs.insert run.runId run from rfl,
        Std.ExtTreeMap.getElem?_insert] at hget'
      split at hget'
      · next heq =>
          cases hget'
          exact Std.LawfulEqCmp.eq_of_compare heq
      · exact h.runs id' run' hget'
  | writeManifest manifest =>
      refine ⟨h.runs, fun id' manifest' hget' => ?_⟩
      rw [show ((Effect.writeManifest manifest).apply w).manifests
          = w.manifests.insert manifest.runId manifest from rfl,
        Std.ExtTreeMap.getElem?_insert] at hget'
      split at hget'
      · next heq =>
          cases hget'
          exact Std.LawfulEqCmp.eq_of_compare heq
      · exact h.manifests id' manifest' hget'
  | purge id =>
      refine ⟨fun id' run' hget' => ?_, fun id' manifest' hget' => ?_⟩
      · rw [show ((Effect.purge id).apply w).runs = w.runs.erase id from rfl,
          Std.ExtTreeMap.getElem?_erase] at hget'
        split at hget'
        · cases hget'
        · exact h.runs id' run' hget'
      · rw [show ((Effect.purge id).apply w).manifests = w.manifests.erase id from rfl,
          Std.ExtTreeMap.getElem?_erase] at hget'
        split at hget'
        · cases hget'
        · exact h.manifests id' manifest' hget'
  | collect expired =>
      refine ⟨fun id' run' hget' => ?_, fun id' manifest' hget' => ?_⟩
      · simp only [Effect.apply, Std.ExtTreeMap.getElem?_filter'] at hget'
        exact h.runs id' run' (Option.filter_eq_some_iff.mp hget').1
      · simp only [Effect.apply, Std.ExtTreeMap.getElem?_filter'] at hget'
        exact h.manifests id' manifest' (Option.filter_eq_some_iff.mp hget').1
  | lockGlobal key op =>
      simp only [Effect.apply, World.lockGlobal]
      split <;> exact h.of_same rfl rfl
  | upsertGlobal global | raise handle | storePaused handle value | allocate
  | unit action owner unitName | beginLaunch key | writeGlobalManifest manifest | serve =>
      exact h.of_same rfl rfl

/-- Nor do several. -/
theorem keyed_effects (es : List Effect) {w : World} (h : Keyed w) :
    Keyed (es.foldl Effect.apply w) := by
  induction es generalizing w with
  | nil => exact h
  | cons e es ih => exact ih (keyed_apply h e)

/-- A restored run has its manifest's id. -/
theorem restoreRun_runId {answers : RestoreAnswers} {manifest : PersistedRun} {run : RunRecord}
    (h : restoreRun answers manifest = some run) : run.runId = manifest.runId := by
  rw [restoreRun] at h
  split at h
  · obtain ⟨prepared, -, rfl⟩ := Option.map_eq_some_iff.mp h
    rfl
  · exact nomatch h

/-- A restart of the daemon reads the runs by their manifests, whose ids are their keys. -/
theorem keyed_sysStep (s : Sys) (a : Action) (h : Keyed s.1) : Keyed (sysStep s a).1 := by
  cases a with
  | request request =>
      simp only [sysStep]
      split <;> exact h
  | run position env =>
      cases ht : s.2[position]? with
      | none =>
          rw [sysStep, stepAt_none Task.step ht]
          exact h
      | some t =>
          rw [sysStep, stepAt_some Task.step ht, step_world]
          exact keyed_effects _ h
  | daemonRestart answers =>
      refine ⟨fun id run hget => ?_, h.manifests⟩
      simp only [sysStep, restartDaemon, Std.ExtTreeMap.getElem?_filterMap'] at hget
      obtain ⟨manifest, hmanifest, hrestore⟩ := Option.bind_eq_some_iff.mp hget
      exact (restoreRun_runId hrestore).trans (h.manifests id manifest hmanifest)

/-- **A RUN'S ID IS ITS KEY** in every state the daemon reaches. -/
theorem keyed_reached (as : List Action) : Keyed (run sysStep start as).1 := by
  refine run_invariant sysStep keyed_sysStep as start ⟨fun id run hget => ?_, fun id m hget => ?_⟩
  · simp [start] at hget
  · simp [start] at hget

end DevstackIdentity
