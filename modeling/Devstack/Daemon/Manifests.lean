import Devstack.Daemon.Identity
import Devstack.Daemon.Successors

/-! # Manifests — the records on disk and the records in memory

    `persist_manifest` reads the record under the lock and writes the file after
    it, and only some of the ways a command can end go through it.  A task that
    will yet come to it `owes` its run a manifest; a manifest that is read and not
    yet written settles the debt if it is still the record's.

    `Persists` says what a step must not do: write a manifest that the record has
    left behind, give up a debt, or change a record without one, while no other task
    makes good for it.  Along such runs the manifests agree with the records
    whenever no task is in progress (`manifests_agree`). -/

namespace DevstackManifests

open DevstackModel DevstackStores DevstackReadiness DevstackHealth DevstackConfig DevstackLaunch
open DevstackStatus DevstackLocked DevstackWorld DevstackTasks DevstackSystem DevstackEffects
open DevstackSuccessors DevstackIdentity DevstackInterleaving DevstackMachine

-- ── what is compared ──────────────────────────────────────────────────────────

/-- A saved service: its state, ports, failure and hash. -/
structure ServiceView where
  state : ServiceState
  port : Option Port
  listenPort : Option Port
  lastFailure : Option String
  watchHash : Option String
  deriving DecidableEq

/-- A saved run: its state, its stop time and its services. -/
structure RunView where
  state : RunLifecycle
  stoppedAt : Option String
  services : BTreeMap ServiceView
  deriving DecidableEq

def savedView (saved : PersistedService) : ServiceView where
  state := saved.state
  port := saved.port
  listenPort := saved.listenPort
  lastFailure := saved.lastFailure
  watchHash := saved.watchHash

def manifestView (manifest : PersistedRun) : RunView where
  state := manifest.state
  stoppedAt := manifest.stoppedAt
  services := manifest.services.map (fun _ saved => savedView saved)

def serviceView (record : ServiceRecord) : ServiceView := savedView (persistedService record)

/-- The projection of a record. -/
def runView (run : RunRecord) : RunView := manifestView (persistedRun run)

theorem runView_eq {run run' : RunRecord} (hstate : run'.state = run.state)
    (hstopped : run'.stoppedAt = run.stoppedAt)
    (hservices : ∀ name : String, (run'.services[name]?).map serviceView
      = (run.services[name]?).map serviceView) : runView run' = runView run := by
  have hmap : run'.services.map (fun _ record => serviceView record)
      = run.services.map (fun _ record => serviceView record) := by
    refine Std.ExtTreeMap.ext_getElem? fun name => ?_
    rw [Std.ExtTreeMap.getElem?_map, Std.ExtTreeMap.getElem?_map]
    exact hservices name
  simp only [runView, manifestView, persistedRun, Std.ExtTreeMap.map_map, RunView.mk.injEq]
  exact ⟨hstate, hstopped, hmap⟩

-- ── operations that keep the view ─────────────────────────────────────────────

section Ops

variable (run : RunRecord)

theorem runView_updateService (service : String)
    {f : ServiceRecord → ServiceRecord × List HandleId}
    (hf : ∀ record, serviceView (f record).1 = serviceView record) :
    runView (updateService run service f).1 = runView run := by
  refine runView_eq (updateService_state run service f) ?_ fun name => ?_
  · rw [updateService]
    split <;> rfl
  · rw [updateService_services]
    split
    · rw [Option.map_map]
      exact congrArg (fun g => Option.map g _) (funext hf)
    · rfl

theorem runView_map {f : String → ServiceRecord → ServiceRecord}
    (hf : ∀ name record, serviceView (f name record) = serviceView record) :
    runView { run with services := run.services.map f } = runView run := by
  refine runView_eq rfl rfl fun name => ?_
  show ((run.services.map f)[name]?).map serviceView = _
  rw [Std.ExtTreeMap.getElem?_map, Option.map_map]
  exact congrArg (fun g => Option.map g _) (funext (hf name))

/-- Recomputing without an event changes nothing. -/
theorem recompute_quiet (h : (recomputeRunState run).2 = none) : (recomputeRunState run).1 = run := by
  rw [recomputeRunState] at h ⊢
  split at h
  · next hstopped => rw [if_pos hstopped]
  · next hstopped =>
      rw [if_neg hstopped]
      dsimp only at h ⊢
      split at h
      · cases h
      · next hsame => rw [Classical.not_not.mp hsame]

/-- An update without an event changes nothing. -/
theorem updateAndRecompute_quiet {service : String}
    {f : ServiceRecord → ServiceRecord × Option DaemonEvent}
    (hf : ∀ record, (f record).2 = none → (f record).1 = record)
    (h : (updateAndRecompute run service f).2 = []) :
    runView (updateAndRecompute run service f).1 = runView run := by
  rw [updateAndRecompute] at h ⊢
  split at h
  · next record hget =>
      obtain ⟨hrecord, hrun⟩ := List.append_eq_nil_iff.mp h
      have hsame : (f record).1 = record := hf record (Option.toList_eq_nil_iff.mp hrecord)
      show runView (recomputeRunState _).1 = runView run
      rw [recompute_quiet _ (Option.toList_eq_nil_iff.mp hrun)]
      refine runView_eq rfl rfl fun name => ?_
      show ((run.services.insert service (f record).1)[name]?).map serviceView = _
      rw [Std.ExtTreeMap.getElem?_insert]
      split
      · next heq => rw [← Std.LawfulEqCmp.eq_of_compare heq, hget, hsame]
      · rfl
  · show runView (recomputeRunState run).1 = runView run
    rw [recompute_quiet run (Option.toList_eq_nil_iff.mp h)]

theorem setServiceState_ne {runId service now : String} {record : ServiceRecord}
    {state : ServiceState} (h : record.runtime.state ≠ state) :
    (setServiceState runId service now record state).2 ≠ none := by
  rw [ne_eq, setServiceState_event_none]
  exact h

/-- A health transition without an event changes nothing. -/
theorem transition_quiet {runId service now : String} {change : Transition}
    (h : (applyTransition runId service now change run).2 = []) :
    runView (applyTransition runId service now change run).1 = runView run := by
  cases change with
  | healthy => rfl
  | recoverToReady =>
      refine updateAndRecompute_quiet run (fun record hevent => ?_) h
      rw [recoveredRecord] at hevent ⊢
      split at hevent
      · next hcond =>
          exact absurd hevent (setServiceState_ne (by rw [hcond.1]; decide))
      · next hcond => rw [if_neg hcond]
  | markDegraded =>
      refine updateAndRecompute_quiet run (fun record hevent => ?_) h
      rw [degradedRecord] at hevent ⊢
      split at hevent
      · next hcond => exact absurd hevent (setServiceState_ne (by rw [hcond]; decide))
      · next hcond => rw [if_neg hcond]

/-- A status that changed nothing, and kept the run's state. -/
theorem reconcile_quiet {status : RunStatus} (h : reconcileChanged status run = false)
    (hstate : status.state = run.state) :
    runView (DevstackStatus.reconcile status run) = runView run := by
  refine runView_eq hstate rfl fun name => ?_
  show ((run.services.map _)[name]?).map serviceView = _
  rw [Std.ExtTreeMap.getElem?_map, Option.map_map]
  cases hget : run.services[name]? with
  | none => rfl
  | some record =>
      rw [Option.map_some, Option.map_some]
      refine congrArg some ?_
      cases hwritten : status.services[name]? with
      | none => rfl
      | some written =>
          have hsame : standing record = (written.state, written.lastFailure) := by
            rw [reconcileChanged, Bool.or_eq_false_iff, List.any_eq_false] at h
            have hnot := h.1 (name, written)
              (Std.ExtTreeMap.mem_toList_iff_getElem?_eq_some.mpr hwritten)
            simpa [hget] using hnot
          obtain ⟨hs, hf⟩ := Prod.mk.inj hsame
          simp [serviceView, savedView, persistedService, writeStatus, ← hs, ← hf]

/-- Operations that keep the view of any run. -/
def keepsView : RunOp → Bool
  | .restarted .. | .syncWatcher .. | .keepWatcher .. | .syncCapture .. | .keepCapture ..
  | .setWatchPaused .. | .stopHandles => true
  | _ => false

theorem view_apply {op : RunOp} (h : keepsView op = true) :
    runView (op.apply run).1 = runView run := by
  cases op with
  | restarted service now => exact runView_updateService run service (fun _ => rfl)
  | syncWatcher service =>
      refine runView_updateService run service fun record => ?_
      rw [watchSyncBegin]
      split <;> rfl
  | keepWatcher service fresh =>
      refine runView_updateService run service fun record => ?_
      show serviceView (watchSyncKeep fresh record) = _
      rw [watchSyncKeep]
      split <;> rfl
  | syncCapture service =>
      refine runView_updateService run service fun record => ?_
      rw [captureSyncBegin]
      split <;> rfl
  | keepCapture service fresh =>
      refine runView_updateService run service fun record => ?_
      show serviceView (captureSyncKeep fresh record) = _
      rw [captureSyncKeep]
      split <;> rfl
  | setWatchPaused service value =>
      have hpaused : ∀ record, serviceView (pausedRecord value record) = serviceView record := by
        intro record
        rw [pausedRecord]
        split <;> rfl
      cases service with
      | some service => exact runView_updateService run service hpaused
      | none => exact runView_map run (fun _ => hpaused)
  | stopHandles => exact runView_map run (fun _ _ => rfl)
  | _ => cases h

end Ops

-- ── debts ─────────────────────────────────────────────────────────────────────

def callerOwes : GlobalsCaller → Option String
  | .up job => some job.runId
  | .boot _ _ => none

def contOwes : Cont → Option String
  | .unchangedSynced job _ _ | .launchRest job _ | .launched job _ _ _ _ _
  | .captured job _ _ _ => some job.runId
  | .globalPersisted _ _ _ caller | .globalSynced _ _ caller => callerOwes caller
  | _ => none

/-- The run whose manifest a task will yet read and write, unless it gives up. -/
def owes : Task → Option String
  | .persist run _ | .restart run _ _ _ | .waitReadiness run _ _ | .stopHandles run _ _
  | .listServices run _ _ | .stopUnits run _ _ _ | .releasePorts run _ | .markStopped run _ =>
      some run
  | .loadPostInit r | .restartUnit r | .restarted r | .waitRestart r => some r.run
  | .monitorLimit m => some m.run
  | .ensureGlobals _ caller | .checkGlobal _ _ _ caller | .startGlobal _ _ _ _ caller
  | .waitGlobal _ _ _ _ _ _ caller => callerOwes caller
  | .refresh job | .stopRemoved job _ _ | .removeMissing job _ | .openRun job | .launchNext job _
  | .applyUnchanged job _ _ _ | .storeFailedInit job _ _ _ _ | .startUnit job _ _ _
  | .storeResult job _ _ _ _ _
  | .proxyFailed job _ _ _ | .handleReadiness job _ _ _ | .finalize job => some job.runId
  | .persistGlobal _ k | .writeGlobal _ k | .syncWatcher _ _ k | .keepWatcher _ k
  | .syncGlobalWatcher _ k | .keepGlobalWatcher _ k | .syncCapture _ _ k
  | .keepCapture _ _ k => contOwes k
  | _ => none

/-- The run whose view a step may change. -/
def touches : Task → Option String
  | .restart run _ _ _ | .waitReadiness run _ _ | .writeStatus run _ _ | .markStopped run _ =>
      some run
  | .waitRestart r => some r.run
  | .watcherCompare t _ => some t.run
  | .monitorProbe m | .monitorLimit m => some m.run
  | .removeMissing job _ | .openRun job | .applyUnchanged job _ _ _ | .storeFailedInit job _ _ _ _
  | .storeResult job _ _ _ _ _ | .proxyFailed job _ _ _ | .handleReadiness job _ _ _
  | .finalize job => some job.runId
  | _ => none

/-- Accesses that write no manifest and change the view of no run but one. -/
def sparing (touched : Option String) : Effect → Bool
  | .lock run op => decide (touched = some run) || keepsView op
  | .createRun run => decide (touched = some run.runId)
  | .writeManifest _ | .purge _ | .collect _ => false
  | _ => true

/-- A run has the same view in two worlds. -/
def SameView (w w' : World) (id : String) : Prop :=
  (w'.runs[id]?).map runView = (w.runs[id]?).map runView

theorem sameView_lock {w : World} {run id : String} {op : RunOp}
    (h : run = id → ∀ record, w.runs[run]? = some record →
      runView (op.apply record).1 = runView record) : SameView w (w.lock run op) id := by
  rw [SameView, World.lock]
  cases hget : w.runs[run]? with
  | none => rfl
  | some record =>
      show ((w.runs.insert run (op.apply record).1)[id]?).map runView = _
      rw [Std.ExtTreeMap.getElem?_insert]
      split
      · next heq =>
          have hid := Std.LawfulEqCmp.eq_of_compare heq
          rw [← hid, hget, Option.map_some, Option.map_some, h hid record hget]
      · rfl

theorem sparing_apply {touched : Option String} (w : World) {e : Effect}
    (h : sparing touched e = true) :
    (e.apply w).manifests = w.manifests
      ∧ ∀ id, touched ≠ some id → SameView w (e.apply w) id := by
  cases e with
  | lock run op =>
      refine ⟨?_, fun id hid => sameView_lock fun hrun record _ => ?_⟩
      · simp only [Effect.apply, World.lock]
        split <;> rfl
      · rcases Bool.or_eq_true_iff.mp h with htouched | hkeeps
        · exact absurd (hrun ▸ of_decide_eq_true htouched) hid
        · exact view_apply record hkeeps
  | createRun run =>
      refine ⟨rfl, fun id hid => ?_⟩
      show ((w.runs.insert run.runId run)[id]?).map runView = _
      rw [Std.ExtTreeMap.getElem?_insert]
      split
      · next heq =>
          rw [← Std.LawfulEqCmp.eq_of_compare heq] at hid
          exact absurd (of_decide_eq_true h) hid
      · rfl
  | lockGlobal key op =>
      simp only [Effect.apply, World.lockGlobal]
      split <;> exact ⟨rfl, fun _ _ => rfl⟩
  | writeManifest manifest | purge run | collect expired => cases h
  | upsertGlobal global | raise handle | storePaused handle value | allocate
  | unit action owner unitName | beginLaunch key | writeGlobalManifest manifest | serve =>
      exact ⟨rfl, fun _ _ => rfl⟩

theorem sparing_fold {touched : Option String} {es : List Effect}
    (h : ∀ e ∈ es, sparing touched e = true) (w : World) :
    (es.foldl Effect.apply w).manifests = w.manifests
      ∧ ∀ id, touched ≠ some id → SameView w (es.foldl Effect.apply w) id := by
  induction es generalizing w with
  | nil => exact ⟨rfl, fun _ _ => rfl⟩
  | cons e es ih =>
      obtain ⟨hmanifests, hviews⟩ := sparing_apply w (h e (List.mem_cons_self ..))
      obtain ⟨hmanifests', hviews'⟩ := ih (fun e' he' => h e' (List.mem_cons_of_mem _ he'))
        (e.apply w)
      exact ⟨hmanifests'.trans hmanifests, fun id hid => (hviews' id hid).trans (hviews id hid)⟩

/-- Tasks that write or remove manifests. -/
def files : Task → Bool
  | .write .. | .purge _ | .gc => true
  | _ => false

theorem sparing_lock (run : String) (op : RunOp) : sparing (some run) (.lock run op) = true :=
  Bool.or_eq_true_iff.mpr (Or.inl (decide_eq_true rfl))

theorem sparing_keeps {touched : Option String} {run : String} {op : RunOp}
    (hop : keepsView op = true) : sparing touched (.lock run op) = true :=
  Bool.or_eq_true_iff.mpr (Or.inr hop)

theorem sparing_deliver {w : World} {run service now : String} {result : Except String Unit}
    {e : Effect} (h : e ∈ deliverEffects w run service now result) :
    sparing (some run) e = true := by
  rcases mem_deliver h with ⟨handle, rfl⟩ | ⟨reason, rfl⟩ | rfl
  · exact sparing_lock run _
  · exact sparing_lock run _
  · rfl

/-- **A STEP CHANGES ONE RUN**, and manifests only where it says so. -/
theorem sparing_of_makes {env : Env} {w : World} {t : Task} (hfiles : files t = false) {e : Effect}
    (h : Makes env w t e) : sparing (touches t) e = true := by
  cases h with
  | aside t haside =>
      cases e with
      | storePaused | unit | beginLaunch | writeGlobalManifest | serve => rfl
      | _ => exact nomatch haside
  | write manifest k | purge run | gc => exact nomatch hfiles
  | waitRestart r h | waitReadiness run service launch h | handleReadiness job launch name rest h =>
      exact sparing_deliver h
  | createRun job baseEnv hfree => exact decide_eq_true rfl
  -- what no manifest holds
  | syncWatcher run service k | keepWatcher t k | syncCapture run service k
  | keepCapture run service k | restarted r | stopHandles run kill purge | pauseWatch run service
  | resumeWatch run service => exact sparing_keeps rfl
  | watcherCompare t hash | restart run service noWait caller | monitorProbe m change
  | monitorLimit m | writeStatus run copy k | removeMissing job removed | openRun job baseEnv
  | applyUnchanged job prepared name rest | storeFailedInit job prepared error name rest
  | storeResult job prepared launch start name rest | proxyFailed job launch name reason
  | finalize job | markStopped run purge => exact sparing_lock _ _
  | _ => rfl

theorem owes_deliver {w : World} {run service now : String} {result : Except String Unit}
    {t : Task} {run' : String} (h : owes t = some run') :
    ∃ t' ∈ t :: (deliver w run service now result).2, owes t' = some run' :=
  ⟨t, List.mem_cons_self .., h⟩

theorem owes_one {t : Task} {id : String} (h : owes t = some id) : ∃ t' ∈ [t], owes t' = some id :=
  ⟨t, List.mem_singleton.mpr rfl, h⟩

/-- A watcher that finds the hash it knows changes nothing. -/
theorem compareHash_quiet {run : RunRecord} {service hash : String} {record : ServiceRecord}
    (hget : run.services[service]? = some record) (hsame : hashDiffers hash record = false) :
    runView ((RunOp.compareHash service hash).apply run).1 = runView run := by
  refine runView_eq (updateService_state run service _) ?_ fun name => ?_
  · show (updateService run service _).1.stoppedAt = _
    rw [updateService]
    split <;> rfl
  · show ((updateService run service _).1.services[name]?).map serviceView = _
    rw [updateService_services]
    split
    · next hname =>
        rw [hname, hget, Option.map_some, Option.map_some, Option.map_some]
        show some (serviceView (compareHashRecord hash record)) = _
        rw [compareHashRecord, hsame]
        rfl
    · rfl

/-- **A CHANGE OF A RUN IS OWED FOR**, but for a refresh that gives up and for a status
    that is written over a run it was not read from. -/
theorem touched_step (env : Env) {w : World} {t : Task} {id : String} (hkeyed : Keyed w)
    (h : touches t = some id) :
    SameView w (t.step env w).1 id ∨ (∃ t' ∈ (t.step env w).2, owes t' = some id)
      ∨ (∃ job removed, t = .removeMissing job removed ∧ removed ≠ [])
      ∨ ∃ copy k record, t = .writeStatus id copy k ∧ w.runs[id]? = some record
          ∧ reconcileChanged (buildStatus env.unitStatus copy) record = false
          ∧ (buildStatus env.unitStatus copy).state ≠ record.state := by
  cases t with
  | restart run service noWait caller =>
      cases Option.some.inj h
      simp only [Task.step]
      split
      · exact Or.inl rfl
      · split
        · exact Or.inl rfl
        · exact Or.inr (Or.inl (owes_one rfl))
  | waitRestart r =>
      cases Option.some.inj h
      simp only [Task.step]
      split
      · exact Or.inl rfl
      · exact Or.inr (Or.inl (owes_deliver rfl))
  | waitReadiness run service launch =>
      cases Option.some.inj h
      exact Or.inr (Or.inl (owes_deliver rfl))
  | watcherCompare t hash =>
      cases Option.some.inj h
      simp only [Task.step]
      cases hget : (w.runs[t.run]?).bind (fun r => r.services[t.service]?) with
      | none => exact Or.inl rfl
      | some record =>
          cases hdiffers : hashDiffers hash record with
          | true =>
              refine Or.inr (Or.inl ⟨.restart t.run t.service true (.watcher t), ?_, rfl⟩)
              simp [hdiffers]
          | false =>
              refine Or.inl (sameView_lock fun _ run hrun => ?_)
              rw [hrun, Option.bind_some] at hget
              exact compareHash_quiet hget hdiffers
  | monitorProbe m =>
      cases Option.some.inj h
      simp only [Task.step]
      cases hrun : w.runs[m.run]? with
      | none => exact Or.inl (sameView_lock fun _ run hget => by cases hrun.symm.trans hget)
      | some run =>
          dsimp only
          split
          · next hevents =>
              refine Or.inl (sameView_lock fun _ run' hget => ?_)
              cases Option.some.inj (hrun.symm.trans hget)
              simp only [RunOp.apply, hkeyed.runs m.run run hrun]
              exact transition_quiet run hevents
          · exact Or.inr (Or.inl (owes_one rfl))
  | monitorLimit m =>
      cases Option.some.inj h
      exact Or.inr (Or.inl (owes_one rfl))
  | writeStatus run copy k =>
      cases Option.some.inj h
      simp only [Task.step]
      cases hget : w.runs[id]? with
      | none => exact Or.inl rfl
      | some record =>
          cases hchanged : reconcileChanged (buildStatus env.unitStatus copy) record with
          | true =>
              refine Or.inr (Or.inl ⟨.persist id k, ?_, rfl⟩)
              simp [hchanged]
          | false =>
              by_cases hstate : (buildStatus env.unitStatus copy).state = record.state
              · refine Or.inl (sameView_lock fun _ record' hrecord' => ?_)
                cases Option.some.inj (hget.symm.trans hrecord')
                exact reconcile_quiet record hchanged hstate
              · exact Or.inr (Or.inr (Or.inr ⟨copy, k, record, rfl, rfl, hchanged, hstate⟩))
  | removeMissing job removed =>
      cases Option.some.inj h
      by_cases hnil : removed = []
      · refine Or.inl ?_
        simp only [Task.step, if_pos hnil]
        rfl
      · exact Or.inr (Or.inr (Or.inl ⟨job, removed, rfl, hnil⟩))
  | openRun job =>
      cases Option.some.inj h
      simp only [Task.step]
      split
      · exact Or.inl rfl
      · split
        · exact Or.inl rfl
        · exact Or.inr (Or.inl (owes_one rfl))
      · split
        · exact Or.inr (Or.inl (owes_one rfl))
        · exact Or.inl rfl
  | applyUnchanged job prepared name rest | storeFailedInit job prepared error name rest
  | storeResult job prepared launch start name rest | proxyFailed job launch name reason
  | finalize job | markStopped run purges =>
      cases Option.some.inj h
      simp only [Task.step]
      split
      · exact Or.inl rfl
      · exact Or.inr (Or.inl (owes_one rfl))
  | handleReadiness job launch name rest =>
      cases Option.some.inj h
      simp only [Task.step]
      split
      · exact Or.inl rfl
      · split
        · exact Or.inl rfl
        · split <;> exact Or.inr (Or.inl (owes_deliver rfl))
  | _ => cases h

-- ── agreement and its condition ───────────────────────────────────────────────

/-- The manifest of a run is the projection of its record. -/
def Agrees (w : World) (id : String) : Prop :=
  ∀ run, w.runs[id]? = some run →
    ∃ manifest, w.manifests[id]? = some manifest ∧ manifestView manifest = runView run

/-- A manifest is still what its record would be saved as. -/
def Current (w : World) (manifest : PersistedRun) : Prop :=
  ∀ run, w.runs[manifest.runId]? = some run → manifestView manifest = runView run

/-- A task that will bring the manifest of a run up to date. -/
def Settles (w : World) (id : String) (t : Task) : Prop :=
  owes t = some id ∨ ∃ manifest k, t = .write manifest k ∧ manifest.runId = id ∧ Current w manifest

/-- The manifest agrees, or another task than the one at `position` settles it. -/
def Kept (s : Sys) (position : Nat) (id : String) : Prop :=
  Agrees s.1 id ∨ ∃ t ∈ s.2.eraseIdx position, Settles s.1 id t

/-- Another task than the one at `position` will yet read the record. -/
def OwedByOthers (s : Sys) (position : Nat) (id : String) : Prop :=
  ∃ t ∈ s.2.eraseIdx position, owes t = some id

/-- What a step must not do while no other task makes good for it. -/
structure GoodStep (s : Sys) (position : Nat) (env : Env) (t : Task) : Prop where
  /-- It writes a manifest that the record has left behind, or fails to write one. -/
  writes : ∀ manifest k, t = .write manifest k →
    (∃ t' ∈ (t.step env s.1).2, owes t' = some manifest.runId)
      ∨ match env.writeManifest with
        | .ok _ => Current s.1 manifest
            ∨ ∃ t' ∈ s.2.eraseIdx position, Settles s.1 manifest.runId t'
        | .error _ => Kept s position manifest.runId
  /-- It gives up: it owed a manifest, and no task it becomes does. -/
  givesUp : ∀ id, owes t = some id → (∀ k, t ≠ .persist id k) →
    (∃ t' ∈ (t.step env s.1).2, owes t' = some id) ∨ OwedByOthers s position id
      ∨ (∀ job removed, t = .removeMissing job removed → removed = []) ∧ Kept s position id
  /-- It writes a stopped status over a run that was woken since it was read. -/
  status : ∀ run copy k record, t = .writeStatus run copy k → s.1.runs[run]? = some record →
    reconcileChanged (buildStatus env.unitStatus copy) record = false →
    (buildStatus env.unitStatus copy).state = record.state ∨ OwedByOthers s position run

/-- The services of a manifest are restored with its ports and its hash. -/
def RestoresWhole (answers : RestoreAnswers) (manifest : PersistedRun) : Prop :=
  ∀ prepared, answers.runPrepared manifest.runId = some prepared →
    ∀ (name : String) (saved : PersistedService), manifest.services[name]? = some saved →
      saved.watchHash ≠ none ∧ ∃ p, prepared name = some p ∧ p.port = saved.port
        ∧ p.listenPort = saved.listenPort

/-- The condition on the steps of a run. -/
def Persists (s : Sys) : Action → Prop
  | .request _ => True
  | .run position env => ∀ t, s.2[position]? = some t → GoodStep s position env t
  | .daemonRestart answers => ∀ (id : String) (manifest : PersistedRun),
      s.1.manifests[id]? = some manifest → RestoresWhole answers manifest

/-- Tasks between their loops' checks: no command, no readiness task, no restart and no
    transition.  A monitor in its probe is not one: the transition comes with the answer. -/
def idle : Task → Bool
  | .monitorInit .. | .monitorTop _ | .monitorSlept _ | .watcherTop _ | .watcherEvent _
  | .globalWatcherTop _ | .globalWatcherEvent _ => true
  | _ => false

/-- Whenever no task is in progress, every manifest agrees with its record. -/
def AgreesAtRest (s : Sys) : Prop := (∀ t ∈ s.2, idle t = true) → ∀ id, Agrees s.1 id

-- ── one step ──────────────────────────────────────────────────────────────────

structure Settled (s : Sys) : Prop where
  keyed : Keyed s.1
  settled : ∀ id, Agrees s.1 id ∨ ∃ t ∈ s.2, Settles s.1 id t

theorem sameView_some {w w' : World} {id : String} (h : SameView w w' id) {run' : RunRecord}
    (hrun' : w'.runs[id]? = some run') :
    ∃ run, w.runs[id]? = some run ∧ runView run = runView run' := by
  rw [SameView, hrun', Option.map_some] at h
  exact Option.map_eq_some_iff.mp h.symm

theorem agrees_of_same {w w' : World} {id : String} (hview : SameView w w' id)
    (hmanifest : w'.manifests[id]? = w.manifests[id]?) (h : Agrees w id) : Agrees w' id := by
  intro run' hrun'
  obtain ⟨run, hrun, heq⟩ := sameView_some hview hrun'
  obtain ⟨manifest, hget, hmatch⟩ := h run hrun
  exact ⟨manifest, hmanifest.trans hget, hmatch.trans heq⟩

theorem settles_of_same {w w' : World} {id : String} {t : Task} (hview : SameView w w' id)
    (h : Settles w id t) : Settles w' id t := by
  rcases h with howes | ⟨manifest, k, ht, rfl, hcurrent⟩
  · exact Or.inl howes
  · refine Or.inr ⟨manifest, k, ht, rfl, fun run' hrun' => ?_⟩
    obtain ⟨run, hrun, heq⟩ := sameView_some hview hrun'
    exact (hcurrent run hrun).trans heq

section Step

variable {s : Sys} {position : Nat} {env : Env} {t : Task} {id : String}

/-- What is kept stays settled when the run and its manifest stay as they are. -/
theorem kept_step (hget : s.2[position]? = some t)
    (hview : SameView s.1 (t.step env s.1).1 id)
    (hmanifest : (t.step env s.1).1.manifests[id]? = s.1.manifests[id]?)
    (h : Kept s position id) :
    Agrees (t.step env s.1).1 id
      ∨ ∃ t' ∈ (stepAt Task.step s (position, env)).2, Settles (t.step env s.1).1 id t' := by
  rcases h with hagrees | ⟨t', ht', hsettles⟩
  · exact Or.inl (agrees_of_same hview hmanifest hagrees)
  · exact Or.inr ⟨t', (mem_stepAt_iff Task.step hget).mpr (Or.inr ht'),
      settles_of_same hview hsettles⟩

theorem owed_next (hget : s.2[position]? = some t)
    (h : ∃ t' ∈ (t.step env s.1).2, owes t' = some id) :
    Agrees (t.step env s.1).1 id
      ∨ ∃ t' ∈ (stepAt Task.step s (position, env)).2, Settles (t.step env s.1).1 id t' := by
  obtain ⟨t', ht', howes⟩ := h
  exact Or.inr ⟨t', (mem_stepAt_iff Task.step hget).mpr (Or.inl ht'), Or.inl howes⟩

theorem owed_others (hget : s.2[position]? = some t) (h : OwedByOthers s position id) :
    Agrees (t.step env s.1).1 id
      ∨ ∃ t' ∈ (stepAt Task.step s (position, env)).2, Settles (t.step env s.1).1 id t' := by
  obtain ⟨t', ht', howes⟩ := h
  exact Or.inr ⟨t', (mem_stepAt_iff Task.step hget).mpr (Or.inr ht'), Or.inl howes⟩

/-- A run and a manifest that a step leaves alone stay settled, unless the task that
    steps was the one that settled them. -/
theorem settled_same (h : Settled s) (hget : s.2[position]? = some t)
    (hview : SameView s.1 (t.step env s.1).1 id)
    (hmanifest : (t.step env s.1).1.manifests[id]? = s.1.manifests[id]?)
    (hself : Settles s.1 id t → Agrees (t.step env s.1).1 id
      ∨ ∃ t' ∈ (stepAt Task.step s (position, env)).2, Settles (t.step env s.1).1 id t') :
    Agrees (t.step env s.1).1 id
      ∨ ∃ t' ∈ (stepAt Task.step s (position, env)).2, Settles (t.step env s.1).1 id t' := by
  rcases h.settled id with hagrees | ⟨t', ht', hsettles⟩
  · exact kept_step hget hview hmanifest (Or.inl hagrees)
  · rcases (mem_iff_eraseIdx hget).mp ht' with rfl | ht'
    · exact hself hsettles
    · exact kept_step hget hview hmanifest (Or.inr ⟨t', ht', hsettles⟩)

/-- The step of `write`. -/
theorem settled_write {manifest : PersistedRun} {k : Cont} (h : Settled s)
    (hget : s.2[position]? = some (.write manifest k))
    (hgood : GoodStep s position env (.write manifest k)) :
    Agrees ((Task.write manifest k).step env s.1).1 id
      ∨ ∃ t' ∈ (stepAt Task.step s (position, env)).2,
        Settles ((Task.write manifest k).step env s.1).1 id t' := by
  have hview : SameView s.1 ((Task.write manifest k).step env s.1).1 id := by
    simp only [SameView, Task.step]
    split <;> rfl
  by_cases hid : manifest.runId = id
  · subst hid
    rcases hgood.writes manifest k rfl with hnext | hwrite
    · exact owed_next hget hnext
    · cases hresult : env.writeManifest with
      | error err =>
          rw [hresult] at hwrite
          refine kept_step hget hview ?_ hwrite
          simp only [Task.step, hresult]
      | ok _ =>
          rw [hresult] at hwrite
          rcases hwrite with hcurrent | ⟨t', ht', hsettles⟩
          · refine Or.inl fun run hrun => ⟨manifest, ?_, hcurrent run ?_⟩
            · simp only [Task.step, hresult, Std.ExtTreeMap.getElem?_insert_self]
            · simpa only [Task.step, hresult] using hrun
          · exact Or.inr ⟨t', (mem_stepAt_iff Task.step hget).mpr (Or.inr ht'),
              settles_of_same hview hsettles⟩
  · refine settled_same h hget hview ?_ fun hself => ?_
    · simp only [Task.step]
      split
      · rfl
      · rw [Std.ExtTreeMap.getElem?_insert,
          if_neg fun hcmp => hid (Std.LawfulEqCmp.eq_of_compare hcmp)]
    · rcases hself with howes | ⟨manifest', k', heq, hid', -⟩
      · cases howes
      · cases heq
        exact absurd hid' hid

/-- The step of `persist`: the manifest it reads is the record's. -/
theorem settled_persist {run : String} {k : Cont} (hkeyed : Keyed s.1)
    (hget : s.2[position]? = some (.persist run k)) :
    Agrees ((Task.persist run k).step env s.1).1 run
      ∨ ∃ t' ∈ (stepAt Task.step s (position, env)).2,
        Settles ((Task.persist run k).step env s.1).1 run t' := by
  simp only [Task.step]
  cases hrun : s.1.runs[run]? with
  | none =>
      refine Or.inl fun record hrecord => ?_
      rw [hrun] at hrecord
      cases hrecord
  | some record =>
      refine Or.inr ⟨.write (persistedRun record) k, ?_, Or.inr ⟨_, k, rfl, ?_, ?_⟩⟩
      · refine (mem_stepAt_iff Task.step hget).mpr (Or.inl ?_)
        simp [Task.step, hrun]
      · exact hkeyed.runs run record hrun
      · intro record' hrecord'
        rw [show (persistedRun record).runId = record.runId from rfl,
          hkeyed.runs run record hrun, hrun] at hrecord'
        cases hrecord'
        rfl

/-- A run that `gc` or `purge` left alone, or removed. -/
theorem settled_removed (h : Settled s) (hget : s.2[position]? = some t)
    (howes : owes t = none) (hwrite : ∀ manifest k, t ≠ .write manifest k)
    (hstep : (t.step env s.1).1.runs[id]? = none
      ∨ SameView s.1 (t.step env s.1).1 id
        ∧ (t.step env s.1).1.manifests[id]? = s.1.manifests[id]?) :
    Agrees (t.step env s.1).1 id
      ∨ ∃ t' ∈ (stepAt Task.step s (position, env)).2, Settles (t.step env s.1).1 id t' := by
  rcases hstep with hnone | ⟨hview, hmanifest⟩
  · refine Or.inl fun run hrun => ?_
    rw [hnone] at hrun
    exact nomatch hrun
  · refine settled_same h hget hview hmanifest fun hself => ?_
    rcases hself with hself | ⟨manifest, k, heq, -⟩
    · rw [howes] at hself
      exact nomatch hself
    · exact absurd heq (hwrite manifest k)

/-- The step of a task that writes and removes no manifest. -/
theorem settled_plain (h : Settled s) (hget : s.2[position]? = some t)
    (hgood : GoodStep s position env t) (hfiles : files t = false) :
    Agrees (t.step env s.1).1 id
      ∨ ∃ t' ∈ (stepAt Task.step s (position, env)).2, Settles (t.step env s.1).1 id t' := by
  have hspares : ∀ e ∈ effects env s.1 t, sparing (touches t) e = true :=
    fun e he => sparing_of_makes hfiles (makes_of_mem he)
  have hsparing := sparing_fold hspares s.1
  rw [← step_world] at hsparing
  obtain ⟨hmanifests, hviews⟩ := hsparing
  have hself : SameView s.1 (t.step env s.1).1 id → Settles s.1 id t →
      Agrees (t.step env s.1).1 id
        ∨ ∃ t' ∈ (stepAt Task.step s (position, env)).2, Settles (t.step env s.1).1 id t' := by
    intro hview hsettles
    rcases hsettles with howes | ⟨manifest, k, rfl, -⟩
    · by_cases hpersist : ∃ k, t = .persist id k
      · obtain ⟨k, rfl⟩ := hpersist
        exact settled_persist h.keyed hget
      · rcases hgood.givesUp id howes (fun k hk => hpersist ⟨k, hk⟩) with
          hnext | hothers | ⟨-, hkept⟩
        · exact owed_next hget hnext
        · exact owed_others hget hothers
        · exact kept_step hget hview (congrArg (fun m => m[id]?) hmanifests) hkept
    · exact nomatch hfiles
  have hsame : SameView s.1 (t.step env s.1).1 id →
      Agrees (t.step env s.1).1 id
        ∨ ∃ t' ∈ (stepAt Task.step s (position, env)).2, Settles (t.step env s.1).1 id t' :=
    fun hview => settled_same h hget hview (congrArg (fun m => m[id]?) hmanifests) (hself hview)
  by_cases htouches : touches t = some id
  · rcases touched_step env h.keyed htouches with
      hview | hnext | ⟨job, removed, rfl, hremoved⟩ | ⟨copy, k, record, rfl, hrun, hquiet, hstate⟩
    · exact hsame hview
    · exact owed_next hget hnext
    · rcases hgood.givesUp id htouches (fun k hk => nomatch hk) with hnext | hothers | ⟨hnil, -⟩
      · exact owed_next hget hnext
      · exact owed_others hget hothers
      · exact absurd (hnil job removed rfl) hremoved
    · rcases hgood.status id copy k record rfl hrun hquiet with heq | hothers
      · exact absurd heq hstate
      · exact owed_others hget hothers
  · exact hsame (hviews id htouches)

end Step

theorem settled_run {s : Sys} {position : Nat} {env : Env} {t : Task} (h : Settled s)
    (hget : s.2[position]? = some t) (hgood : GoodStep s position env t) :
    Settled (stepAt Task.step s (position, env)) := by
  have hworld : (stepAt Task.step s (position, env)).1 = (t.step env s.1).1 := by
    rw [stepAt_some Task.step hget]
  refine ⟨keyed_sysStep s (.run position env) h.keyed, fun id => ?_⟩
  rw [hworld]
  cases t with
  | write manifest k => exact settled_write h hget hgood
  | purge run =>
      refine settled_removed h hget rfl (fun manifest k heq => by cases heq) ?_
      simp only [Task.step, SameView, Std.ExtTreeMap.getElem?_erase]
      split
      · exact Or.inl rfl
      · exact Or.inr ⟨rfl, rfl⟩
  | gc =>
      refine settled_removed h hget rfl (fun manifest k heq => by cases heq) ?_
      simp only [Task.step, SameView, Std.ExtTreeMap.getElem?_filter']
      cases hrun : s.1.runs[id]? with
      | none => exact Or.inl rfl
      | some run =>
          cases hremoves : gcRemoves env.expired run with
          | true => exact Or.inl (by simp [hremoves])
          | false =>
              refine Or.inr ⟨by simp [hremoves], ?_⟩
              cases s.1.manifests[id]? <;> simp [hremoves]
  | _ => exact settled_plain h hget hgood rfl

/-- A manifest that is restored whole is the projection of the restored record. -/
theorem restoreRun_view {answers : RestoreAnswers} {manifest : PersistedRun} {run : RunRecord}
    (hwhole : RestoresWhole answers manifest) (h : restoreRun answers manifest = some run) :
    manifestView manifest = runView run := by
  rw [restoreRun] at h
  split at h
  · obtain ⟨prepared, hprepared, rfl⟩ := Option.map_eq_some_iff.mp h
    have hservices : manifest.services.map (fun _ saved => savedView saved)
        = (manifest.services.filterMap (fun name saved =>
            (prepared name).map (restoredService saved))).map
          (fun _ record => serviceView record) := by
      refine Std.ExtTreeMap.ext_getElem? fun name => ?_
      rw [Std.ExtTreeMap.getElem?_map, Std.ExtTreeMap.getElem?_map,
        Std.ExtTreeMap.getElem?_filterMap']
      cases hsaved : manifest.services[name]? with
      | none => rfl
      | some saved =>
          obtain ⟨hhash, p, hp, hport, hlisten⟩ := hwhole prepared hprepared name saved hsaved
          obtain ⟨hash, hhash⟩ := Option.ne_none_iff_exists'.mp hhash
          rw [Option.map_some, Option.bind_some, hp, Option.map_some, Option.map_some]
          simp [savedView, serviceView, persistedService, restoredService, hhash,
            intoServiceRecord, ServiceRecord.new, PreparedService.launch, hport, hlisten]
    simp only [manifestView, runView, persistedRun, Std.ExtTreeMap.map_map, RunView.mk.injEq]
    exact ⟨trivial, trivial, hservices⟩
  · cases h

theorem settled_sysStep (s : Sys) (a : Action) (h : Settled s) (hpersists : Persists s a) :
    Settled (sysStep s a) := by
  cases a with
  | request request =>
      simp only [sysStep]
      split
      · refine ⟨h.keyed, fun id => (h.settled id).imp_right ?_⟩
        rintro ⟨t, ht, hsettles⟩
        exact ⟨t, List.mem_append_left _ ht, hsettles⟩
      · exact h
  | run position env =>
      cases hget : s.2[position]? with
      | none =>
          rw [show sysStep s (.run position env) = stepAt Task.step s (position, env) from rfl,
            stepAt_none Task.step hget]
          exact h
      | some t => exact settled_run h hget (hpersists t hget)
  | daemonRestart answers =>
      refine ⟨keyed_sysStep s (.daemonRestart answers) h.keyed, fun id => Or.inl ?_⟩
      intro run hrun
      simp only [sysStep, restartDaemon, Std.ExtTreeMap.getElem?_filterMap'] at hrun
      obtain ⟨manifest, hmanifest, hrestore⟩ := Option.bind_eq_some_iff.mp hrun
      exact ⟨manifest, hmanifest, restoreRun_view (hpersists id manifest hmanifest) hrestore⟩

theorem owes_idle {t : Task} (h : idle t = true) : owes t = none := by
  cases t with
  | monitorInit run service | monitorTop m | monitorSlept m | watcherTop t | watcherEvent t
  | globalWatcherTop t | globalWatcherEvent t => rfl
  | _ => exact nomatch h

theorem agreesAtRest_of_settled {s : Sys} (h : Settled s) : AgreesAtRest s := by
  intro hidle id
  rcases h.settled id with hagrees | ⟨t, ht, howes | ⟨manifest, k, rfl, -⟩⟩
  · exact hagrees
  · rw [owes_idle (hidle t ht)] at howes
    exact nomatch howes
  · exact nomatch hidle _ ht

/-- A step that hands its debt on, or had none, or writes what the record is. -/
def handsOn (s : Sys) (position : Nat) (env : Env) : Bool :=
  match s.2[position]? with
  | none | some (.persist _ _) => true
  | some (.writeStatus ..) => false
  | some (.write manifest _) =>
      env.writeManifest.isOk && (s.1.runs[manifest.runId]?).all
        (fun run => decide (manifestView manifest = runView run))
  | some t => (owes t).all (fun id => (t.step env s.1).2.any (fun t' => owes t' = some id))

theorem persists_of_handsOn {s : Sys} {position : Nat} {env : Env}
    (h : handsOn s position env = true) : Persists s (.run position env) := by
  intro t hget
  rw [handsOn, hget] at h
  have howes : ∀ id, owes t = some id → (∀ k, t ≠ .persist id k) →
      (owes t).all (fun id => (t.step env s.1).2.any (fun t' => owes t' = some id)) = true →
      ∃ t' ∈ (t.step env s.1).2, owes t' = some id := by
    intro id howes _ hall
    rw [howes, Option.all_some, List.any_eq_true] at hall
    obtain ⟨t', ht', hid⟩ := hall
    exact ⟨t', ht', of_decide_eq_true hid⟩
  cases t with
  | persist run k =>
      refine ⟨fun manifest k' heq => (nomatch heq), fun id hid hne => ?_,
        fun run' copy k' record heq => (nomatch heq)⟩
      cases Option.some.inj hid
      exact absurd rfl (hne k)
  | writeStatus run copy k => exact nomatch h
  | write manifest k =>
      refine ⟨fun manifest' k' heq => ?_, fun id hid => (nomatch hid),
        fun run' copy k' record heq => (nomatch heq)⟩
      cases heq
      obtain ⟨hok, hcurrent⟩ := Bool.and_eq_true_iff.mp h
      refine Or.inr ?_
      cases hresult : env.writeManifest with
      | error err =>
          rw [hresult] at hok
          exact nomatch hok
      | ok _ =>
          refine Or.inl fun run hrun => ?_
          rw [hrun, Option.all_some] at hcurrent
          exact of_decide_eq_true hcurrent
  | _ =>
      exact ⟨fun manifest k heq => (nomatch heq),
        fun id hid hne => Or.inl (howes id hid hne h),
        fun run copy k record heq => (nomatch heq)⟩

/-- `up` as far as its run is in memory. -/
def upOpened : List Action := upWeb.take 4

/-- A service that cannot be prepared. -/
def unprepared : Env := { smooth with prepared := .error "read env_file /app/.env" }

end DevstackManifests
