import Devstack.Daemon.Monitors
import Devstack.Daemon.Pausing

/-! # Watchers — whose watcher a task is

    `sync_service_auto_restart_watcher` and its sibling for globals look under the lock
    whether a record needs a watcher, start one without the lock, and take the lock again
    to put its handle into the record.  Two of them can be between the locks for the same
    service; the later one finds a handle in the record and raises its own.

    So nothing but the record, or the task that is about to write it, keeps a watcher
    going: its handle is there, or its flag is raised (`Accounted`).  Every change of a
    record raises the flag of a watch handle that it drops, and so does every removal
    except those that erase whole runs; `Tidy` says that they find no watch handle.  Then
    a service has as many watchers as `watched_once` counts. -/

namespace DevstackWatchers

open DevstackModel DevstackStores DevstackReadiness DevstackHealth DevstackConfig DevstackLaunch
open DevstackStatus DevstackLocked DevstackWorld DevstackTasks DevstackSystem DevstackEffects
open DevstackSuccessors DevstackHandles DevstackPausing DevstackInterleaving DevstackMachine

-- ── what a change of a record raises ──────────────────────────────────────────

/-- A change of a record that raises the flag of a watch handle it drops. -/
def Releases (record record' : ServiceRecord) (raised : List HandleId) : Prop :=
  ∀ hd, record.handles.watch = some hd → record'.handles.watch = some hd ∨ hd ∈ raised

theorem Releases.of_watch {record record' : ServiceRecord} {raised : List HandleId}
    (h : record'.handles.watch = record.handles.watch) : Releases record record' raised :=
  fun _ hwatch => Or.inl (h.trans hwatch)

/-- A change of a run that raises the flags of the watch handles it drops. -/
def ReleasesIn (r r' : RunRecord) (raised : List HandleId) : Prop :=
  ∀ (name : String) record hd, r.services[name]? = some record →
    record.handles.watch = some hd →
    (∃ record', r'.services[name]? = some record' ∧ record'.handles.watch = some hd)
      ∨ hd ∈ raised

theorem ReleasesIn.of_services {r r' : RunRecord} {raised : List HandleId}
    (h : r'.services = r.services) : ReleasesIn r r' raised :=
  fun name record _ hget hwatch => Or.inl ⟨record, by rw [h]; exact hget, hwatch⟩

section Ops

variable {r r' : RunRecord} {raised : List HandleId} {service : String}

theorem releasesIn_one {f : ServiceRecord → ServiceRecord}
    (hservices : ∀ name : String, r'.services[name]?
      = if name = service then (r.services[name]?).map f else r.services[name]?)
    (hf : ∀ record, r.services[service]? = some record → Releases record (f record) raised) :
    ReleasesIn r r' raised := by
  intro name record hd hget hwatch
  by_cases hname : name = service
  · subst hname
    refine (hf record hget hd hwatch).imp_left (fun hkept => ⟨f record, ?_, hkept⟩)
    rw [hservices, if_pos rfl, hget, Option.map_some]
  · refine Or.inl ⟨record, ?_, hwatch⟩
    rw [hservices, if_neg hname, hget]

theorem releasesIn_updateService {f : ServiceRecord → ServiceRecord × List HandleId}
    (hf : ∀ record, Releases record (f record).1 (f record).2) :
    ReleasesIn r (updateService r service f).1 (updateService r service f).2 := by
  refine releasesIn_one (f := fun record => (f record).1) (updateService_services r service f)
    (fun record hget => ?_)
  have hraised : (updateService r service f).2 = (f record).2 := by
    rw [updateService, hget]
  rw [hraised]
  exact hf record

theorem releasesIn_updateAndRecompute {f : ServiceRecord → ServiceRecord × Option DaemonEvent}
    (hf : ∀ record, (f record).1.handles.watch = record.handles.watch) :
    ReleasesIn r (updateAndRecompute r service f).1 raised :=
  releasesIn_one (updateAndRecompute_services r service f)
    (fun record _ => Releases.of_watch (hf record))

theorem releasesIn_map {f : String → ServiceRecord → ServiceRecord}
    (hservices : r'.services = r.services.map f)
    (hf : ∀ name record, (f name record).handles.watch = record.handles.watch) :
    ReleasesIn r r' raised := by
  intro name record hd hget hwatch
  refine Or.inl ⟨f name record, ?_, (hf name record).trans hwatch⟩
  rw [hservices, Std.ExtTreeMap.getElem?_map, hget, Option.map_some]

theorem mem_liveHandles_of_watch {record : ServiceRecord} {hd : HandleId}
    (h : record.handles.watch = some hd) : hd ∈ liveHandles record :=
  List.mem_append_left _ (List.mem_append_right _ (Option.mem_toList.mpr h))

/-- Records that stay, or are dropped with all their handles. -/
theorem releasesIn_dropped
    (h : ∀ (name : String) record, r.services[name]? = some record →
      r'.services[name]? = some record ∨ ∀ hd ∈ liveHandles record, hd ∈ raised) :
    ReleasesIn r r' raised := by
  intro name record hd hget hwatch
  rcases h name record hget with hkept | hraised
  · exact Or.inl ⟨record, hkept, hwatch⟩
  · exact Or.inr (hraised hd (mem_liveHandles_of_watch hwatch))

theorem releases_watchSyncBegin (record : ServiceRecord) :
    Releases record (watchSyncBegin record).1 (watchSyncBegin record).2 := by
  rw [watchSyncBegin]
  split
  · exact fun hd hwatch => Or.inr (Option.mem_toList.mpr hwatch)
  · exact Releases.of_watch rfl

/-- The handle that is in the record already stays there. -/
theorem releases_watchSyncKeep (fresh : HandleId) (record : ServiceRecord)
    (raised : List HandleId) : Releases record (watchSyncKeep fresh record) raised := by
  intro hd hwatch
  have hkeeps : watchSyncKeeps record = false := by
    rw [watchSyncKeeps, hwatch]
    exact Bool.and_false _
  rw [watchSyncKeep, if_neg (ne_true_of_eq_false hkeeps)]
  exact Or.inl hwatch

theorem watch_ready (runId name now : String) (fresh : HandleId) (record : ServiceRecord) :
    (readyRecord runId name now fresh record).1.handles.watch = record.handles.watch := by
  simp only [readyRecord]
  split <;> simp

/-- **A LOCKED STEP RAISES WHAT IT DROPS**: the flags of the watch handles that were in the
    records of its run and are there no more. -/
theorem releasesIn_apply (op : RunOp) (r : RunRecord) :
    ReleasesIn r (op.apply r).1 (op.apply r).2 := by
  cases op with
  | beginRestart service now =>
      exact releasesIn_updateAndRecompute
        (fun record => congrArg (·.watch) (beginRestartRecord_handles r.runId service now record))
  | markReady service now fresh =>
      exact releasesIn_updateAndRecompute (watch_ready r.runId service now fresh)
  | markFailed service now reason =>
      exact releasesIn_updateAndRecompute
        (fun record => congrArg (·.watch) (failedRecord_handles r.runId service now reason record))
  | transition service now change =>
      cases change with
      | healthy => exact ReleasesIn.of_services rfl
      | recoverToReady =>
          refine releasesIn_updateAndRecompute (fun record => ?_)
          rw [recoveredRecord]
          split
          · simp
          · rfl
      | markDegraded =>
          refine releasesIn_updateAndRecompute (fun record => ?_)
          rw [degradedRecord]
          split
          · simp
          · rfl
  | restarted service now =>
      exact releasesIn_updateService (fun record => Releases.of_watch rfl)
  | compareHash service hash =>
      refine releasesIn_updateService (fun record => Releases.of_watch ?_)
      show (compareHashRecord hash record).handles.watch = record.handles.watch
      rw [compareHashRecord]
      split <;> rfl
  | syncWatcher service => exact releasesIn_updateService releases_watchSyncBegin
  | keepWatcher service fresh =>
      exact releasesIn_updateService (fun record => releases_watchSyncKeep fresh record _)
  | syncCapture service =>
      refine releasesIn_updateService (fun record => Releases.of_watch ?_)
      rw [captureSyncBegin]
      split <;> rfl
  | keepCapture service fresh =>
      refine releasesIn_updateService (fun record => Releases.of_watch ?_)
      show (captureSyncKeep fresh record).handles.watch = record.handles.watch
      rw [captureSyncKeep]
      split <;> rfl
  | setWatchPaused service value =>
      have hpaused : ∀ record, (pausedRecord value record).handles.watch
          = record.handles.watch := by
        intro record
        rw [pausedRecord]
        split <;> rfl
      cases service with
      | some service =>
          exact releasesIn_updateService (fun record => Releases.of_watch (hpaused record))
      | none => exact releasesIn_map rfl (fun _ record => hpaused record)
  | applyPrepared service prepared =>
      refine releasesIn_updateService (fun record => Releases.of_watch ?_)
      rw [applyPreparedToRuntime_eq]
      split <;> rfl
  | store service record =>
      refine releasesIn_dropped (fun name previous hget => ?_)
      rw [RunOp.apply, replaceServiceRecord_services]
      by_cases hname : name = service
      · subst hname
        refine Or.inr (fun hd hlive => ?_)
        rw [replaceServiceRecord, hget]
        exact hlive
      · rw [if_neg hname]
        exact Or.inl hget
  | removeMissing removed =>
      refine releasesIn_dropped (fun name record hget => ?_)
      rw [RunOp.apply, removeServicesMissingFromStack]
      by_cases hnil : removed = []
      · rw [if_pos hnil]
        exact Or.inl hget
      rw [if_neg hnil]
      by_cases hname : name ∈ removed
      · refine Or.inr (fun hd hlive => List.mem_flatMap.mpr ⟨name, hname, ?_⟩)
        rw [hget]
        exact hlive
      · refine Or.inl ?_
        rw [recomputeRunState_services]
        simp [Std.ExtTreeMap.getElem?_filter, hget, hname]
  | updateResources baseEnv =>
      exact ReleasesIn.of_services (updateRunLaunchResources_services r baseEnv)
  | recompute => exact ReleasesIn.of_services (recomputeRunState_services r)
  | stopHandles =>
      refine releasesIn_dropped (fun name record hget => Or.inr (fun hd hlive => ?_))
      exact List.mem_flatMap.mpr
        ⟨(name, record), Std.ExtTreeMap.mem_toList_iff_getElem?_eq_some.mpr hget, hlive⟩
  | stopAll now => exact releasesIn_map rfl (fun _ _ => by simp)
  | reconcile status =>
      refine releasesIn_map rfl (fun name record => ?_)
      split <;> rfl

end Ops

theorem releases_globalApply (op : GlobalOp) (global : GlobalRecord) :
    Releases global.service (op.apply global).1.service (op.apply global).2 := by
  cases op with
  | syncWatcher => exact releases_watchSyncBegin global.service
  | keepWatcher fresh => exact releases_watchSyncKeep fresh global.service _
  | compareHash hash =>
      refine Releases.of_watch ?_
      simp only [GlobalOp.apply]
      split
      · rw [compareHashRecord]
        split <;> rfl
      · rfl
  | _ => exact Releases.of_watch rfl

-- ── accesses to the world ─────────────────────────────────────────────────────

/-- The record of the key has the handle. -/
def Registered (w : World) (p : Key × HandleId) : Prop :=
  ∃ record, recordOf w p.1 = some record ∧ record.handles.watch = some p.2

/-- The handle is in the record, or its flag was raised. -/
def Accounted (w : World) (p : Key × HandleId) : Prop := Registered w p ∨ p.2 ∈ w.raised

/-- A run without a watch handle. -/
def Unwatched (r : RunRecord) : Prop := ∀ kv ∈ r.services.toList, kv.2.handles.watch = none

instance (r : RunRecord) : Decidable (Unwatched r) := List.decidableBAll _ _

theorem Unwatched.get {r : RunRecord} (h : Unwatched r) {name : String} {record : ServiceRecord}
    (hget : r.services[name]? = some record) : record.handles.watch = none :=
  h (name, record) (Std.ExtTreeMap.mem_toList_iff_getElem?_eq_some.mpr hget)

/-- An access that writes over no run, and erases none that has a watch handle. -/
def Clean (w : World) : Effect → Prop
  | .createRun run => w.runs[run.runId]? = none
  | .purge run => ∀ r ∈ w.runs[run]?, Unwatched r
  | .collect expired => ∀ kv ∈ w.runs.toList, gcRemoves expired kv.2 = true → Unwatched kv.2
  | _ => True

instance (w : World) : ∀ e, Decidable (Clean w e)
  | .createRun run => inferInstanceAs (Decidable (w.runs[run.runId]? = none))
  | .purge run => inferInstanceAs (Decidable (∀ r ∈ w.runs[run]?, Unwatched r))
  | .collect expired =>
      inferInstanceAs (Decidable (∀ kv ∈ w.runs.toList, gcRemoves expired kv.2 = true →
        Unwatched kv.2))
  | .lock .. | .lockGlobal .. | .upsertGlobal .. | .raise .. | .storePaused .. | .allocate
  | .unit .. | .beginLaunch .. | .writeManifest .. | .writeGlobalManifest .. | .serve =>
      .isTrue trivial

section Accesses

variable {w : World} {p : Key × HandleId}

theorem accounted_lock (h : Registered w p) (id : String) (op : RunOp) :
    Accounted (w.lock id op) p := by
  obtain ⟨record, hrecord, hwatch⟩ := h
  rw [World.lock]
  cases hget : w.runs[id]? with
  | none => exact Or.inl ⟨record, hrecord, hwatch⟩
  | some r =>
      obtain ⟨key, hd⟩ := p
      cases key with
      | global key => exact Or.inl ⟨record, hrecord, hwatch⟩
      | service run name =>
          by_cases hrun : run = id
          · subst hrun
            rw [recordOf, hget, Option.bind_some] at hrecord
            rcases releasesIn_apply op r name record hd hrecord hwatch with
              ⟨record', hrecord', hkept⟩ | hraised
            · refine Or.inl ⟨record', ?_, hkept⟩
              rw [recordOf, Std.ExtTreeMap.getElem?_insert_self, Option.bind_some, hrecord']
            · exact Or.inr (List.mem_append_right _ hraised)
          · refine Or.inl ⟨record, ?_, hwatch⟩
            rw [← hrecord]
            simp [recordOf, Std.ExtTreeMap.getElem?_insert, Ne.symm hrun]

theorem accounted_lockGlobal (h : Registered w p) (name : String) (op : GlobalOp) :
    Accounted (w.lockGlobal name op) p := by
  obtain ⟨record, hrecord, hwatch⟩ := h
  rw [World.lockGlobal]
  cases hget : w.globals[name]? with
  | none => exact Or.inl ⟨record, hrecord, hwatch⟩
  | some global =>
      obtain ⟨key, hd⟩ := p
      cases key with
      | service run service => exact Or.inl ⟨record, hrecord, hwatch⟩
      | global key =>
          by_cases hkey : key = name
          · subst hkey
            rw [recordOf, hget, Option.map_some] at hrecord
            cases hrecord
            rcases releases_globalApply op global hd hwatch with hkept | hraised
            · refine Or.inl ⟨(op.apply global).1.service, ?_, hkept⟩
              rw [recordOf, Std.ExtTreeMap.getElem?_insert_self, Option.map_some]
            · exact Or.inr (List.mem_append_right _ hraised)
          · refine Or.inl ⟨record, ?_, hwatch⟩
            rw [← hrecord]
            simp [recordOf, Std.ExtTreeMap.getElem?_insert, Ne.symm hkey]

theorem accounted_upsertGlobal (h : Registered w p) (global : GlobalRecord) :
    Accounted (w.upsertGlobal global) p := by
  obtain ⟨record, hrecord, hwatch⟩ := h
  obtain ⟨key, hd⟩ := p
  cases key with
  | service run service => exact Or.inl ⟨record, hrecord, hwatch⟩
  | global key =>
      by_cases hkey : key = global.key
      · subst hkey
        obtain ⟨previous, hprevious, rfl⟩ := Option.map_eq_some_iff.mp hrecord
        refine Or.inr (List.mem_append_right _ ?_)
        rw [hprevious]
        exact mem_liveHandles_of_watch hwatch
      · refine Or.inl ⟨record, ?_, hwatch⟩
        rw [← hrecord]
        simp [recordOf, World.upsertGlobal, Std.ExtTreeMap.getElem?_insert, Ne.symm hkey]

/-- Runs are written or erased, and with them no record that has a watch handle. -/
theorem registered_runs {runs : BTreeMap RunRecord} {manifests : BTreeMap PersistedRun}
    (h : Registered w p)
    (hruns : ∀ (id : String) (r : RunRecord), w.runs[id]? = some r →
      runs[id]? = some r ∨ Unwatched r) :
    Registered { w with runs := runs, manifests := manifests } p := by
  obtain ⟨record, hrecord, hwatch⟩ := h
  obtain ⟨key, hd⟩ := p
  cases key with
  | global key => exact ⟨record, hrecord, hwatch⟩
  | service run name =>
      obtain ⟨r, hrun, hget⟩ := Option.bind_eq_some_iff.mp hrecord
      rcases hruns run r hrun with hkept | hbare
      · refine ⟨record, ?_, hwatch⟩
        rw [recordOf, hkept, Option.bind_some, hget]
      · rw [hbare.get hget] at hwatch
        cases hwatch

/-- **NO ACCESS LOSES A WATCHER**: its handle stays in the record or its flag is raised. -/
theorem accounted_apply {e : Effect} (hclean : Clean w e) (h : Accounted w p) :
    Accounted (e.apply w) p := by
  rcases h with h | hraised
  · cases e with
    | lock id op => exact accounted_lock h id op
    | lockGlobal key op => exact accounted_lockGlobal h key op
    | upsertGlobal global => exact accounted_upsertGlobal h global
    | createRun run =>
        refine Or.inl (registered_runs h (fun id r hget => Or.inl ?_))
        have hne : run.runId ≠ id := fun heq => by
          have hfree : w.runs[run.runId]? = none := hclean
          rw [heq, hget] at hfree
          cases hfree
        rw [Std.ExtTreeMap.getElem?_insert, if_neg (by simpa using hne)]
        exact hget
    | purge run =>
        refine Or.inl (registered_runs h (fun id r hget => ?_))
        by_cases hid : id = run
        · subst hid
          exact Or.inr (hclean r hget)
        · refine Or.inl ?_
          rw [Std.ExtTreeMap.getElem?_erase, if_neg (by simpa using Ne.symm hid)]
          exact hget
    | collect expired =>
        refine Or.inl (registered_runs h (fun id r hget => ?_))
        cases hremoves : gcRemoves expired r with
        | true =>
            exact Or.inr (hclean (id, r)
              (Std.ExtTreeMap.mem_toList_iff_getElem?_eq_some.mpr hget) hremoves)
        | false => exact Or.inl (by simp [hget, hremoves])
    | _ =>
        obtain ⟨record, hrecord, hwatch⟩ := h
        refine Or.inl ⟨record, ?_, hwatch⟩
        rw [← hrecord]
        cases p.1 <;> rfl
  · exact Or.inr (DevstackMonitors.raised_effect e p.2 hraised)

theorem accounted_effects {es : List Effect} (hclean : ∀ e ∈ es, ∀ w', Clean w' e)
    (h : Accounted w p) : Accounted (es.foldl Effect.apply w) p := by
  induction es generalizing w with
  | nil => exact h
  | cons e es ih =>
      exact ih (fun e' he' => hclean e' (List.mem_cons_of_mem e he'))
        (accounted_apply (hclean e List.mem_cons_self w) h)

end Accesses

-- ── the tasks ─────────────────────────────────────────────────────────────────

/-- The record whose watcher a task is, and the watcher's handle; one that restarts its
    service waits in that call. -/
def watcherOf : Task → Option (Key × HandleId)
  | .keepWatcher _ k | .keepGlobalWatcher _ k => (contSpeaks k).head?
  | t => (speaks t).head?

def watcherHandle (t : Task) : Option HandleId := (watcherOf t).map Prod.snd

theorem filterMap_watcherHandle (ts : List Task) :
    ts.filterMap watcherHandle = (ts.filterMap watcherOf).map Prod.snd :=
  List.map_filterMap.symm

/-- The record that a task is about to give a watch handle. -/
def placing : Task → Option (Key × HandleId)
  | .keepWatcher t _ => some (.service t.run t.service, t.handle)
  | .keepGlobalWatcher t _ => some (.global t.key, t.handle)
  | _ => none

/-- The access of a task that removes whole runs. -/
def removal (env : Env) : Task → Option Effect
  | .purge run => some (.purge run)
  | .gc => some (.collect env.expired)
  | _ => none

/-- `purge` and `run_gc` come to runs whose watchers were stopped. -/
def Tidy (s : Sys) : Action → Prop
  | .run position env => ∀ t ∈ s.2[position]?, ∀ e ∈ removal env t, Clean s.1 e
  | _ => True

instance (s : Sys) : ∀ a, Decidable (Tidy s a)
  | .run position env =>
      inferInstanceAs (Decidable (∀ t ∈ s.2[position]?, ∀ e ∈ removal env t, Clean s.1 e))
  | .request _ | .daemonRestart _ => .isTrue trivial

section Tasks

variable {env : Env} {w : World} {t t' : Task} {p : Key × HandleId}

theorem mem_speaks_of_watcherOf (h : watcherOf t = some p) : p ∈ speaks t := by
  cases t with
  | keepWatcher t k | keepGlobalWatcher t k =>
      exact List.mem_cons_of_mem _ (List.mem_of_mem_head? h)
  | _ => exact List.mem_of_mem_head? h

theorem watcherOf_resume {k : Cont} {result : Except String Unit} (h : t' ∈ k.resume result)
    (hp : watcherOf t' = some p) : (contSpeaks k).head? = some p := by
  cases resumes_of_mem h with
  | watcherTop t => exact hp
  | _ => cases hp

/-- **WHERE WATCHERS COME FROM**: a watcher was one before the step, or was started in it. -/
theorem watcherOf_succ (h : Succ env w t t') (hp : watcherOf t' = some p) :
    watcherOf t = some p ∨ (watches t = some p.1 ∧ p.2 = w.nextHandle) := by
  cases h with
  | persistGone hmem | writeResume hmem | persistGlobalGone hmem | writeGlobalResume hmem
  | syncWatcherResume hmem | syncGlobalWatcherResume hmem | syncCaptureResume hmem
  | keepCaptureResume hmem | statusGone hmem | writeStatusResume hmem | keepWatcherResume hmem
  | keepGlobalWatcherResume hmem =>
      exact Or.inl (watcherOf_resume hmem hp)
  | listRuns hmem | resumeWatch hmem => cases watcherOf_resume hmem hp
  | restartGone hmem | loadPostInitFailed hmem | restartUnitFailed hmem | waitRestartGone hmem =>
      exact Or.inl (@watcherOf_resume _ _ (.restarted _) (.ok ()) hmem hp)
  | ensureGlobalsDone hmem | checkGlobalFailed hmem =>
      cases globalsResumes_of_mem hmem <;> cases hp
  | syncWatcherSpawn run service k | syncGlobalWatcherSpawn key k =>
      cases hp
      exact Or.inr ⟨rfl, rfl⟩
  | _ => first | exact Or.inl hp | cases hp

/-- A task that was going to place a handle placed it, or raised its flag. -/
theorem accounted_placed (h : placing t = some p) : Accounted (t.step env w).1 p := by
  cases t with
  | keepWatcher t k =>
      cases h
      simp only [Task.step]
      split
      · exact Or.inr (List.mem_append_right _ (List.mem_singleton_self _))
      · next record hrecord =>
          obtain ⟨r, hrun, hget⟩ := Option.bind_eq_some_iff.mp hrecord
          have hlock : w.lock t.run (.keepWatcher t.service t.handle)
              = { w with
                  runs := w.runs.insert t.run
                    ((RunOp.keepWatcher t.service t.handle).apply r).1
                  raised := w.raised ++ ((RunOp.keepWatcher t.service t.handle).apply r).2 } := by
            rw [World.lock, hrun]
          cases hkeeps : watchSyncKeeps record with
          | true =>
              simp only [if_true]
              refine Or.inl ⟨watchSyncKeep t.handle record, ?_, ?_⟩
              · show recordOf (w.lock t.run (.keepWatcher t.service t.handle))
                  (.service t.run t.service) = _
                rw [hlock, recordOf, Std.ExtTreeMap.getElem?_insert_self, Option.bind_some,
                  RunOp.apply, updateService_services, if_pos rfl, hget, Option.map_some]
              · rw [watchSyncKeep, if_pos hkeeps]
          | false =>
              refine Or.inr ?_
              simp only [Bool.false_eq_true, if_false]
              rw [hlock]
              refine List.mem_append_right _ ?_
              rw [RunOp.apply, updateService, hget]
              simp [hkeeps]
  | keepGlobalWatcher t k =>
      cases h
      simp only [Task.step]
      split
      · exact Or.inr (List.mem_append_right _ (List.mem_singleton_self _))
      · next global hglobal =>
          have hlock : w.lockGlobal t.key (.keepWatcher t.handle)
              = { w with
                  globals := w.globals.insert t.key ((GlobalOp.keepWatcher t.handle).apply global).1
                  raised := w.raised ++ ((GlobalOp.keepWatcher t.handle).apply global).2 } := by
            rw [World.lockGlobal, hglobal]
          cases hkeeps : watchSyncKeeps global.service with
          | true =>
              simp only [if_true]
              refine Or.inl ⟨watchSyncKeep t.handle global.service, ?_, ?_⟩
              · show recordOf (w.lockGlobal t.key (.keepWatcher t.handle)) (.global t.key) = _
                rw [hlock, recordOf, Std.ExtTreeMap.getElem?_insert_self, Option.map_some]
                rfl
              · rw [watchSyncKeep, if_pos hkeeps]
          | false =>
              refine Or.inr ?_
              simp only [Bool.false_eq_true, if_false]
              rw [hlock]
              refine List.mem_append_right _ ?_
              simp [GlobalOp.apply, hkeeps]
  | _ => cases h

theorem accounted_step (hclean : ∀ e ∈ effects env w t, Clean w e) (h : Accounted w p) :
    Accounted (t.step env w).1 p := by
  rw [step_world]
  by_cases hone : ∃ e, effects env w t = [e]
  · obtain ⟨e, he⟩ := hone
    rw [he]
    exact accounted_apply (hclean e (by rw [he]; exact List.mem_singleton_self e)) h
  · -- a run is written or erased by an access that is alone
    refine accounted_effects (fun e he w' => ?_) h
    cases makes_of_mem he with
    | aside t haside =>
        cases e with
        | storePaused | unit | beginLaunch | writeGlobalManifest | serve => trivial
        | _ => cases haside
    | createRun job baseEnv hfree =>
        simp only [effects] at he hone
        split at he
        · cases he
        · split at he <;> simp at he
        · split at he
          · next hcreates => simp [*] at hone
          · cases he
    | purge run | gc => exact absurd ⟨_, rfl⟩ hone
    | waitRestart r hmem | waitReadiness run service launch hmem
    | handleReadiness job launch name rest hmem =>
        rcases DevstackEffects.mem_deliver hmem with ⟨handle, rfl⟩ | ⟨reason, rfl⟩ | rfl <;> trivial
    | _ => trivial

/-- What a step leaves of a record's watcher that has its handle or was stopped. -/
theorem resume_watcher (k : Cont) (result : Except String Unit) :
    ((k.resume result).filterMap watcherOf).Sublist (contSpeaks k).head?.toList := by
  by_cases hk : ∃ t, k = .restarted (.watcher t)
  · obtain ⟨t, rfl⟩ := hk
    exact List.Sublist.refl _
  · have hnone : (contSpeaks k).head? = none := by
      cases k with
      | restarted caller =>
          cases caller with
          | watcher t => exact absurd ⟨t, rfl⟩ hk
          | _ => rfl
      | _ => rfl
    have hnil : (k.resume result).filterMap watcherOf = [] := by
      refine List.filterMap_eq_nil_iff.mpr (fun t' ht' => ?_)
      cases hp : watcherOf t' with
      | none => rfl
      | some p =>
          have := watcherOf_resume ht' hp
          rw [hnone] at this
          cases this
    rw [hnil]
    exact List.nil_sublist _

/-- A step that starts no watcher goes on with at most the one it was. -/
theorem watcher_step_le (h : watches t = none) :
    ((t.step env w).2.filterMap watcherOf).length ≤ 1 := by
  cases hp : watcherOf t with
  | none =>
      have hnil : (t.step env w).2.filterMap watcherOf = [] := by
        refine List.filterMap_eq_nil_iff.mpr (fun t' ht' => ?_)
        cases hp' : watcherOf t' with
        | none => rfl
        | some p =>
            rcases watcherOf_succ (succ_of_mem ht') hp' with hold | ⟨hwatches, -⟩
            · rw [hp] at hold
              cases hold
            · rw [h] at hwatches
              cases hwatches
      rw [hnil]
      exact Nat.zero_le _
  | some p =>
      have hresume : ∀ (k : Cont) result, ((k.resume result).filterMap watcherOf).length ≤ 1 :=
        fun k result => (resume_watcher k result).length_le.trans
          (by cases (contSpeaks k).head? <;> simp)
      have hcaller : ∀ caller : Caller, (caller.resume.filterMap watcherOf).length ≤ 1 :=
        fun caller => hresume (.restarted caller) (.ok ())
      -- what a step spawns besides is no watcher
      have hfirst : ∀ (t' : Task) (ts : List Task), ts.filterMap watcherOf = [] →
          ((t' :: ts).filterMap watcherOf).length ≤ 1 := by
        intro t' ts hts
        rw [List.filterMap_cons]
        split
        · rw [hts]
          exact Nat.zero_le _
        · rw [hts]
          exact Nat.le_refl _
      have hone : ∀ t' : Task, ([t'].filterMap watcherOf).length ≤ 1 := fun t' => hfirst t' [] rfl
      cases t with
      | syncWatcher run service k | syncGlobalWatcher key k => cases h
      | persist _ k | persistGlobal _ k | write _ k | writeGlobal _ k | keepWatcher _ k
      | keepGlobalWatcher _ k | status _ k =>
          simp only [Task.step]
          split
          · first | exact hone _ | exact hresume _ _
          · first | exact hone _ | exact hresume _ _
      | syncCapture run service k | writeStatus run copy k =>
          simp only [Task.step]
          split
          · exact hresume _ _
          · split
            · exact hone _
            · exact hresume _ _
      | keepCapture run service k =>
          simp only [Task.step]
          split
          · exact hresume _ _
          · exact hresume _ _
          · split
            · exact hresume _ _
            · exact hresume _ _
      | watcherTop t | globalWatcherTop t =>
          simp only [Task.step]
          split
          · exact Nat.zero_le _
          · exact hone _
      | watcherEvent t | globalWatcherEvent t =>
          simp only [Task.step]
          split
          · exact Nat.zero_le _
          · exact hone _
          · split
            · exact hone _
            · split
              · exact hone _
              · exact hone _
      | watcherCompare t hash | globalWatcherCompare t hash =>
          simp only [Task.step]
          split
          · exact Nat.zero_le _
          · split
            · exact hone _
            · exact hone _
      | restart run service noWait caller =>
          simp only [Task.step]
          split
          · exact hcaller caller
          · split
            · exact hcaller caller
            · exact hone _
      | loadPostInit r | restartUnit r =>
          simp only [Task.step]
          split
          · exact hcaller r.caller
          · exact hone _
      | restarted r =>
          simp only [Task.step]
          split
          · exact hfirst _ _ rfl
          · exact hone _
      | waitRestart r =>
          simp only [Task.step]
          split
          · exact hcaller r.caller
          · refine hfirst _ _ (List.filterMap_eq_nil_iff.mpr (fun t' ht' => ?_))
            rw [DevstackSuccessors.mem_deliver ht']
            rfl
      | restartGlobal t | persistGlobalRestart t _ _ | writeGlobalRestart _ t _ _ =>
          simp only [Task.step]
          split
          · exact hone _
          · exact hone _
      | restartGlobalUnit t unitName launch =>
          simp only [Task.step]
          split
          · exact hone _
          · exact hfirst _ _ rfl
      | _ => cases hp

theorem filterMap_two (t : Task) {t' : Task} (h : watcherOf t' = some p) :
    [t, t'].filterMap watcherOf = (watcherOf t).toList ++ [p] := by
  cases ht : watcherOf t <;> simp [ht, h]

/-- A step goes on with the watcher it was, or starts one with a handle that is new. -/
theorem handles_step (t : Task) :
    ((t.step env w).2.filterMap watcherHandle).Sublist
      ((watcherHandle t).toList ++ [w.nextHandle]) := by
  have htoList : (watcherHandle t).toList = (watcherOf t).toList.map Prod.snd := by
    rw [watcherHandle]
    cases watcherOf t <;> rfl
  rw [htoList, filterMap_watcherHandle]
  cases hwatches : watches t with
  | some key =>
      have hresume : ∀ (k : Cont) result, ((k.resume result).filterMap watcherOf).map Prod.snd
          |>.Sublist ((contSpeaks k).head?.toList.map Prod.snd ++ [w.nextHandle]) :=
        fun k result =>
          ((resume_watcher k result).map Prod.snd).trans (List.sublist_append_left _ _)
      cases t with
      | syncWatcher run service k | syncGlobalWatcher key k =>
          simp only [Task.step]
          split
          · exact hresume k _
          · split
            · exact hresume k _
            · exact hresume k _
            · split
              · exact hresume k _
              · rw [filterMap_two _ rfl, List.map_append]
                exact List.Sublist.refl _
      | _ => cases hwatches
  | none =>
      have hle : ((t.step env w).2.filterMap watcherOf).length ≤ 1 := watcher_step_le hwatches
      cases hl : (t.step env w).2.filterMap watcherOf with
      | nil => exact List.nil_sublist _
      | cons p rest =>
          rw [hl] at hle
          have hrest : rest = [] :=
            List.length_eq_zero_iff.mp (Nat.le_zero.mp (Nat.le_of_succ_le_succ hle))
          have hmem : p ∈ (t.step env w).2.filterMap watcherOf := hl ▸ List.mem_cons_self
          obtain ⟨t', ht', hp⟩ := List.mem_filterMap.mp hmem
          rcases watcherOf_succ (succ_of_mem ht') hp with hold | ⟨hfresh, -⟩
          · rw [hrest, hold]
            exact List.sublist_append_left _ _
          · rw [hwatches] at hfresh
            cases hfresh

/-- A watcher that a step starts comes with the task that places its handle. -/
theorem watcherOf_step (hmem : t' ∈ (t.step env w).2) (hp : watcherOf t' = some p) :
    watcherOf t = some p ∨ ∃ t'' ∈ (t.step env w).2, placing t'' = some p := by
  rcases watcherOf_succ (succ_of_mem hmem) hp with hold | ⟨hwatches, hnew⟩
  · exact Or.inl hold
  · obtain ⟨key, hd⟩ := p
    cases t with
    | syncWatcher run service k | syncGlobalWatcher key k =>
        cases hwatches
        subst hnew
        simp only [Task.step] at hmem ⊢
        split at hmem
        · exact Or.inl (watcherOf_resume hmem hp)
        · split at hmem
          · exact Or.inl (watcherOf_resume hmem hp)
          · exact Or.inl (watcherOf_resume hmem hp)
          · split at hmem
            · exact Or.inl (watcherOf_resume hmem hp)
            · exact Or.inr ⟨_, List.mem_cons_self, rfl⟩
    | _ => cases hwatches

end Tasks

-- ── runs ──────────────────────────────────────────────────────────────────────

/-- No two watchers have one handle, and each handle is in its record, on the way there or
    stopped. -/
structure Followed (s : Sys) : Prop where
  single : (s.2.filterMap watcherHandle).Nodup
  accounted : ∀ t ∈ s.2, ∀ p, watcherOf t = some p →
    Accounted s.1 p ∨ ∃ t' ∈ s.2, placing t' = some p

theorem clean_of_tidy {s : Sys} {position : Nat} {env : Env} {t : Task}
    (h : Tidy s (.run position env)) (hget : s.2[position]? = some t) :
    ∀ e ∈ effects env s.1 t, Clean s.1 e := by
  intro e he
  have hremoval := h t hget
  cases makes_of_mem he with
  | aside t haside =>
      cases e with
      | storePaused | unit | beginLaunch | writeGlobalManifest | serve => trivial
      | _ => cases haside
  | createRun job baseEnv hfree => exact hfree
  | purge run | gc => exact hremoval _ rfl
  | waitRestart r hmem | waitReadiness run service launch hmem
  | handleReadiness job launch name rest hmem =>
      rcases DevstackEffects.mem_deliver hmem with ⟨handle, rfl⟩ | ⟨reason, rfl⟩ | rfl <;> trivial
  | _ => trivial

theorem followed_task {s : Sys} {env : Env} {position : Nat} {t : Task} (h : Followed s)
    (hpaced : Paced s) (htidy : Tidy s (.run position env)) (hget : s.2[position]? = some t) :
    Followed (stepAt Task.step s (position, env)) := by
  have hclean := clean_of_tidy htidy hget
  have hworld : (stepAt Task.step s (position, env)).1 = (t.step env s.1).1 := by
    rw [stepAt_some Task.step hget]
  refine ⟨nodup_stepAt_fresh Task.step hget h.single (handles_step t) (fun t' ht' hnew => ?_),
    fun t' ht' p hp => ?_⟩
  · obtain ⟨owner, -, hknown⟩ := hpaced
    obtain ⟨p, hp, hhd⟩ := Option.map_eq_some_iff.mp hnew
    have hlt := (hknown t' ht' p (mem_speaks_of_watcherOf hp)).2
    rw [hhd] at hlt
    exact absurd hlt (Nat.lt_irrefl _)
  · rw [hworld]
    -- a watcher that was there before the step
    have hold : ∀ t'' ∈ s.2, watcherOf t'' = some p → Accounted (t.step env s.1).1 p
        ∨ ∃ u ∈ (stepAt Task.step s (position, env)).2, placing u = some p := by
      intro t'' ht'' hp''
      rcases h.accounted t'' ht'' p hp'' with haccounted | ⟨u, hu, hplacing⟩
      · exact Or.inl (accounted_step hclean haccounted)
      · rcases (mem_iff_eraseIdx hget).mp hu with rfl | hother
        · exact Or.inl (accounted_placed hplacing)
        · exact Or.inr ⟨u, (mem_stepAt_iff Task.step hget).mpr (Or.inr hother), hplacing⟩
    rcases mem_stepAt Task.step hget ht' with hmem | hmem
    · rcases watcherOf_step hmem hp with hbefore | ⟨u, hu, hplacing⟩
      · exact hold t (List.mem_of_getElem? hget) hbefore
      · exact Or.inr ⟨u, (mem_stepAt_iff Task.step hget).mpr (Or.inl hu), hplacing⟩
    · exact hold t' hmem hp

theorem followed_sysStep (s : Sys) (a : Action) (h : Paced s ∧ Followed s) (htidy : Tidy s a) :
    Paced (sysStep s a) ∧ Followed (sysStep s a) := by
  refine ⟨paced_sysStep s a h.1, ?_⟩
  obtain ⟨hpaced, h⟩ := h
  cases a with
  | request request =>
      have hrequest : watcherOf request.task = none := by cases request <;> rfl
      simp only [sysStep]
      split
      · refine ⟨?_, fun t ht p hp => ?_⟩
        · have hhandle : watcherHandle request.task = none := by rw [watcherHandle, hrequest]; rfl
          rw [List.filterMap_append, List.filterMap_cons_none hhandle, List.filterMap_nil,
            List.append_nil]
          exact h.single
        · rcases List.mem_append.mp ht with ht | ht
          · exact (h.accounted t ht p hp).imp_right
              (Exists.imp fun u hu => ⟨List.mem_append_left _ hu.1, hu.2⟩)
          · rw [List.mem_singleton.mp ht, hrequest] at hp
            cases hp
      · exact h
  | run position env =>
      show Followed (stepAt Task.step s (position, env))
      cases hget : s.2[position]? with
      | none =>
          rw [stepAt_none Task.step hget]
          exact h
      | some t => exact followed_task h hpaced htidy hget
  | daemonRestart answers =>
      refine ⟨List.nodup_nil, fun t ht p hp => ?_⟩
      rw [List.mem_singleton.mp ht] at hp
      cases hp

/-- The handles of a record's watchers that were not stopped. -/
def live (s : Sys) (key : Key) : List HandleId :=
  ((s.2.filterMap watcherOf).filter
    (fun p => decide (p.1 = key) && decide (p.2 ∉ s.1.raised))).map Prod.snd

/-- The handles that are on their way into the record. -/
def placed (s : Sys) (key : Key) : List HandleId :=
  ((s.2.filterMap placing).filter (fun p => decide (p.1 = key))).map Prod.snd

/-- **A RECORD HAS ONE WATCHER**: whatever commands, watchers and restarts interleave, as
    long as no run is removed while it is watched, a watcher that was not stopped has a
    handle of its own, which is the one in the record or one that its starter is about to
    put there.  When nothing is being put there, the service is watched by one at most. -/
theorem watched_once {as : List Action} (htidy : Along sysStep Tidy start as) (key : Key) :
    let s := run sysStep start as
    (live s key).Nodup
      ∧ (∀ hd ∈ live s key, Registered s.1 (key, hd) ∨ hd ∈ placed s key)
      ∧ (live s key).length ≤ 1 + (placed s key).length := by
  intro s
  have hstart : Paced start ∧ Followed start :=
    ⟨paced_start, List.nodup_nil, fun t ht => (by cases ht)⟩
  have h : Followed s := (guarded_invariant sysStep followed_sysStep as start hstart htidy).2
  have hnodup : (live s key).Nodup := by
    have hsingle := h.single
    rw [filterMap_watcherHandle] at hsingle
    exact hsingle.sublist (List.filter_sublist.map Prod.snd)
  have hwhere : ∀ hd ∈ live s key, Registered s.1 (key, hd) ∨ hd ∈ placed s key := by
    intro hd hmem
    obtain ⟨p, hp, rfl⟩ := List.mem_map.mp hmem
    obtain ⟨hp, hlive⟩ := List.mem_filter.mp hp
    obtain ⟨t, ht, hwatcher⟩ := List.mem_filterMap.mp hp
    obtain ⟨rfl, hclear⟩ : p.1 = key ∧ p.2 ∉ s.1.raised := by simpa using hlive
    rcases h.accounted t ht p hwatcher with (hregistered | hraised) | ⟨u, hu, hplacing⟩
    · exact Or.inl hregistered
    · exact absurd hraised hclear
    · exact Or.inr (List.mem_map.mpr ⟨p, List.mem_filter.mpr
        ⟨List.mem_filterMap.mpr ⟨u, hu, hplacing⟩, decide_eq_true rfl⟩, rfl⟩)
  refine ⟨hnodup, hwhere, ?_⟩
  -- the handles are among the record's one and those being placed
  have hsubset : live s key
      ⊆ ((recordOf s.1 key).bind (·.handles.watch)).toList ++ placed s key := by
    intro hd hmem
    rcases hwhere hd hmem with ⟨record, hrecord, hwatch⟩ | hplaced
    · refine List.mem_append_left _ (Option.mem_toList.mpr ?_)
      rw [hrecord, Option.bind_some]
      exact hwatch
    · exact List.mem_append_right _ hplaced
  have hle := (List.subperm_of_subset hnodup hsubset).length_le
  rw [List.length_append] at hle
  exact hle.trans (Nat.add_le_add_right (Option.length_toList_le) _)

/-- While `up` starts a watcher for the service, a request to resume its watch does so
    too; the request comes first, and `up` raises the flag of its own. -/
def overlapping : List Action :=
  compared.take 7 ++ [.request (.resumeWatch "dev-1" (some "web")), .run 1 watched,
    .run 1 watched, .run 0 watched, .run 2 watched, .run 0 watched]

theorem watched_once_overlapping :
    let s := run sysStep start overlapping
    s.2.filterMap watcherHandle = [1, 0] ∧ s.1.raised = [1]
      ∧ (live s (.service "dev-1" "web")).length ≤ 1 + (placed s (.service "dev-1" "web")).length :=
  ⟨by decide +kernel, by decide +kernel,
    (watched_once (by decide +kernel) (.service "dev-1" "web")).2.2⟩

end DevstackWatchers
