import Devstack.Daemon.Handles

/-! # Pausing — the pause of a watch, in the record and in the flag

    Whether the watch of a service is paused stands twice: in its record, where
    `pause_watch` and `resume_watch` of `src/app/commands/watch.rs` write it, and in the
    flag of the handle that the record shares with the watcher's task.  The task looks at
    the flag before it computes a hash, and at the record under the lock.

    A flag is written by whoever has the handle, also by a watcher whose handle no record
    has any more.  So the invariant fixes an owner for each handle when it is made
    (`Paced`): then the flag of a handle that a record has is what the record says
    (`flags_agree`), in every reachable state, and until a paused service is resumed or
    launched again no watcher decides to restart it (`paused_until_resumed`). -/

namespace DevstackPausing

open DevstackModel DevstackStores DevstackReadiness DevstackHealth DevstackConfig DevstackLaunch
open DevstackStatus DevstackLocked DevstackWorld DevstackTasks DevstackSystem DevstackEffects
open DevstackSuccessors DevstackHandles DevstackInterleaving DevstackMachine

-- ── records ───────────────────────────────────────────────────────────────────

/-- The record of a service or of a global. -/
def recordOf (w : World) : Key → Option ServiceRecord
  | .service run service => (w.runs[run]?).bind (fun r => r.services[service]?)
  | .global key => (w.globals[key]?).map (·.service)

/-- A change of a record that sets neither its watch handle nor its pause; the handle may
    be dropped. -/
structure Still (record record' : ServiceRecord) : Prop where
  paused : record'.runtime.watchPaused = record.runtime.watchPaused
  watch : record'.handles.watch = none ∨ record'.handles.watch = record.handles.watch

theorem Still.refl (record : ServiceRecord) : Still record record := ⟨rfl, Or.inr rfl⟩

/-- A change that leaves the handles and the pause is one. -/
theorem Still.of_eq {record record' : ServiceRecord}
    (hpaused : record'.runtime.watchPaused = record.runtime.watchPaused)
    (hhandles : record'.handles = record.handles) : Still record record' :=
  ⟨hpaused, Or.inr (congrArg (·.watch) hhandles)⟩

section Records

variable (record : ServiceRecord)

/-- A restart keeps the watcher and its pause. -/
theorem still_beginRestart (runId service now : String) :
    Still record (beginRestartRecord runId service now record).1 := by
  refine Still.of_eq ?_ (beginRestartRecord_handles runId service now record)
  simp [beginRestartRecord, setLastFailure]

/-- So does readiness, which may start a monitor. -/
theorem still_ready (runId service now : String) (fresh : HandleId) :
    Still record (readyRecord runId service now fresh record).1 := by
  simp only [readyRecord]
  split
  · exact ⟨by simp [setLastFailure], Or.inr (by simp)⟩
  · exact ⟨by simp [setLastFailure], Or.inr (by simp)⟩

theorem still_failed (runId service now reason : String) :
    Still record (failedRecord runId service now reason record).1 := by
  refine Still.of_eq ?_ (failedRecord_handles runId service now reason record)
  simp [failedRecord, setLastFailure]

theorem still_recovered (runId service now : String) :
    Still record (recoveredRecord runId service now record).1 := by
  rw [recoveredRecord]
  split
  · exact ⟨by simp [setLastFailure], Or.inr (by simp)⟩
  · exact Still.refl record

theorem still_degraded (runId service now : String) :
    Still record (degradedRecord runId service now record).1 := by
  rw [degradedRecord]
  split
  · exact ⟨by simp [setLastFailure], Or.inr (by simp)⟩
  · exact Still.refl record

/-- A comparison stores a hash, no pause. -/
theorem still_compareHash (hash : String) : Still record (compareHashRecord hash record) := by
  rw [compareHashRecord]
  split
  · exact ⟨rfl, Or.inr rfl⟩
  · exact Still.refl record

/-- Synchronising the watcher may take its handle away. -/
theorem still_watchSyncBegin : Still record (watchSyncBegin record).1 := by
  rw [watchSyncBegin]
  split
  · exact ⟨rfl, Or.inl rfl⟩
  · exact Still.refl record

theorem still_captureSyncBegin : Still record (captureSyncBegin record).1 := by
  rw [captureSyncBegin]
  split
  · exact ⟨rfl, Or.inr rfl⟩
  · exact Still.refl record

theorem still_captureSyncKeep (fresh : HandleId) : Still record (captureSyncKeep fresh record) := by
  rw [captureSyncKeep]
  split
  · exact ⟨rfl, Or.inr rfl⟩
  · exact Still.refl record

/-- A new plan is applied under the old watcher. -/
theorem still_applyPrepared (prepared : PreparedService) :
    Still record (applyPreparedToRuntime record prepared false).1 := by
  rw [applyPreparedToRuntime_eq]
  split
  · exact ⟨rfl, Or.inr rfl⟩
  · exact ⟨rfl, Or.inr rfl⟩

end Records

-- ── locked steps ──────────────────────────────────────────────────────────────

/-- The records of a run after a change, each from one that was there. -/
def StillIn (run run' : RunRecord) : Prop :=
  ∀ (name : String) (record' : ServiceRecord), run'.services[name]? = some record' →
    ∃ record, run.services[name]? = some record ∧ Still record record'

/-- The same services are no change. -/
theorem StillIn.of_services {run run' : RunRecord} (h : run'.services = run.services) :
    StillIn run run' :=
  fun _ record' hget => ⟨record', h ▸ hget, Still.refl record'⟩

/-- A change of one service leaves the others. -/
theorem stillIn_one {run run' : RunRecord} {service : String} {f : ServiceRecord → ServiceRecord}
    (hservices : ∀ name : String, run'.services[name]?
      = if name = service then (run.services[name]?).map f else run.services[name]?)
    (hf : ∀ record, Still record (f record)) : StillIn run run' := by
  intro name record' hget
  rw [hservices name] at hget
  split at hget
  · obtain ⟨record, hrecord, rfl⟩ := Option.map_eq_some_iff.mp hget
    exact ⟨record, hrecord, hf record⟩
  · exact ⟨record', hget, Still.refl record'⟩

/-- `update_service`, by what it does to the record. -/
theorem stillIn_updateService {f : ServiceRecord → ServiceRecord × List HandleId}
    (hf : ∀ record, Still record (f record).1) (run : RunRecord) (service : String) :
    StillIn run (updateService run service f).1 :=
  stillIn_one (updateService_services run service f) hf

/-- The state of the run is no part of it. -/
theorem stillIn_updateAndRecompute {f : ServiceRecord → ServiceRecord × Option DaemonEvent}
    (hf : ∀ record, Still record (f record).1) (run : RunRecord) (service : String) :
    StillIn run (updateAndRecompute run service f).1 :=
  stillIn_one (updateAndRecompute_services run service f) hf

/-- A change of all services at once. -/
theorem stillIn_map {run run' : RunRecord} {f : String → ServiceRecord → ServiceRecord}
    (hservices : run'.services = run.services.map f)
    (hf : ∀ name record, Still record (f name record)) : StillIn run run' := by
  intro name record' hget
  rw [hservices, Std.ExtTreeMap.getElem?_map] at hget
  obtain ⟨record, hrecord, rfl⟩ := Option.map_eq_some_iff.mp hget
  exact ⟨record, hrecord, hf name record⟩

/-- Operations that set a watch handle or a pause. -/
def setsWatch : RunOp → Bool
  | .keepWatcher .. | .setWatchPaused .. | .store .. => true
  | _ => false

/-- The other locked steps leave every record as it was, to the watcher. -/
theorem stillIn_apply {op : RunOp} (h : setsWatch op = false) (run : RunRecord) :
    StillIn run (op.apply run).1 := by
  cases op with
  | keepWatcher service fresh | setWatchPaused service value | store service record => cases h
  | beginRestart service now =>
      exact stillIn_updateAndRecompute (still_beginRestart · run.runId service now) run service
  | restarted service now => exact stillIn_updateService (fun _ => ⟨rfl, Or.inr rfl⟩) run service
  | markReady service now fresh =>
      exact stillIn_updateAndRecompute (still_ready · run.runId service now fresh) run service
  | markFailed service now reason =>
      exact stillIn_updateAndRecompute (still_failed · run.runId service now reason) run service
  | transition service now change =>
      cases change with
      | healthy => exact StillIn.of_services rfl
      | recoverToReady =>
          exact stillIn_updateAndRecompute (still_recovered · run.runId service now) run service
      | markDegraded =>
          exact stillIn_updateAndRecompute (still_degraded · run.runId service now) run service
  | compareHash service hash => exact stillIn_updateService (still_compareHash · hash) run service
  | syncWatcher service => exact stillIn_updateService still_watchSyncBegin run service
  | syncCapture service => exact stillIn_updateService still_captureSyncBegin run service
  | keepCapture service fresh =>
      exact stillIn_updateService (still_captureSyncKeep · fresh) run service
  | applyPrepared service prepared =>
      exact stillIn_updateService (still_applyPrepared · prepared) run service
  | removeMissing removed =>
      intro name record' hget
      refine ⟨record', ?_, Still.refl record'⟩
      simp only [RunOp.apply, removeServicesMissingFromStack] at hget
      split at hget
      · exact hget
      · rw [recomputeRunState_services, Std.ExtTreeMap.getElem?_filter'] at hget
        exact (Option.filter_eq_some_iff.mp hget).1
  | updateResources baseEnv => exact .of_services (updateRunLaunchResources_services run baseEnv)
  | recompute => exact .of_services (recomputeRunState_services run)
  | stopHandles => exact stillIn_map rfl (fun _ _ => ⟨rfl, Or.inl rfl⟩)
  | stopAll now =>
      exact stillIn_map rfl (fun name record =>
        Still.of_eq (setServiceState_watchPaused run.runId name now record .stopped)
          (setServiceState_handles run.runId name now record .stopped))
  | reconcile status =>
      refine stillIn_map rfl (fun name record => ?_)
      split <;> exact ⟨rfl, Or.inr rfl⟩

/-- The records a request pauses or resumes. -/
def Pausable (service : Option String) (name : String) (record : ServiceRecord) : Prop :=
  (service = none ∨ service = some name) ∧ record.spec.autoRestart = true

/-- A record after the locked step of a request: set, or as it was. -/
theorem setWatchPaused_services {r : RunRecord} {service : Option String} {value : Bool}
    {name : String} {record' : ServiceRecord}
    (h : ((RunOp.setWatchPaused service value).apply r).1.services[name]? = some record') :
    ∃ record, r.services[name]? = some record ∧ record'.handles = record.handles
      ∧ (Pausable service name record → record'.runtime.watchPaused = value)
      ∧ (¬ Pausable service name record →
        record'.runtime.watchPaused = record.runtime.watchPaused) := by
  have hset : ∀ record : ServiceRecord, (service = none ∨ service = some name) →
      (pausedRecord value record).handles = record.handles
      ∧ (Pausable service name record → (pausedRecord value record).runtime.watchPaused = value)
      ∧ (¬ Pausable service name record →
        (pausedRecord value record).runtime.watchPaused = record.runtime.watchPaused) := by
    intro record hnamed
    rw [pausedRecord]
    split
    · next hauto => exact ⟨rfl, fun _ => rfl, fun hnot => absurd ⟨hnamed, hauto⟩ hnot⟩
    · next hauto => exact ⟨rfl, fun hpausable => absurd hpausable.2 hauto, fun _ => rfl⟩
  cases service with
  | none =>
      simp only [RunOp.apply, Std.ExtTreeMap.getElem?_map] at h
      obtain ⟨record, hrecord, rfl⟩ := Option.map_eq_some_iff.mp h
      exact ⟨record, hrecord, hset record (Or.inl rfl)⟩
  | some target =>
      rw [RunOp.apply, updateService_services] at h
      split at h
      · next heq =>
          subst heq
          obtain ⟨record, hrecord, rfl⟩ := Option.map_eq_some_iff.mp h
          exact ⟨record, hrecord, hset record (Or.inr rfl)⟩
      · next hne =>
          refine ⟨record', h, rfl, fun hpausable => ?_, fun _ => rfl⟩
          rcases hpausable.1 with hnone | hsome
          · cases hnone
          · exact absurd (Option.some.inj hsome).symm hne

/-- Only the placing of a watcher sets the handle of a global. -/
theorem still_globalApply {op : GlobalOp} (h : ∀ fresh, op ≠ .keepWatcher fresh)
    (global : GlobalRecord) : Still global.service (op.apply global).1.service := by
  cases op with
  | beginRestart now => exact ⟨rfl, Or.inr rfl⟩
  | markReady => exact ⟨rfl, Or.inr rfl⟩
  | markFailed reason => exact ⟨rfl, Or.inr rfl⟩
  | compareHash hash =>
      simp only [GlobalOp.apply]
      split
      · exact still_compareHash global.service hash
      · exact Still.refl global.service
  | syncWatcher => exact still_watchSyncBegin global.service
  | keepWatcher fresh => exact absurd rfl (h fresh)

-- ── accesses ──────────────────────────────────────────────────────────────────

/-- A change of the world that sets no watch handle, no pause and no flag. -/
structure Loose (w w' : World) : Prop where
  records : ∀ (key : Key) (record' : ServiceRecord), recordOf w' key = some record' →
    record'.handles.watch = none ∨ ∃ record, recordOf w key = some record ∧ Still record record'
  flags : w'.paused = w.paused
  handles : w.nextHandle ≤ w'.nextHandle

/-- Accesses that make such a change. -/
def Tame : Effect → Prop
  | .lock _ (.keepWatcher ..) => False
  | .lock _ (.setWatchPaused ..) => False
  | .lock _ (.store _ record) => record.handles.watch = none
  | .lockGlobal _ (.keepWatcher _) => False
  | .upsertGlobal global => global.service.handles.watch = none
  | .createRun run => run.services = ∅
  | .storePaused .. => False
  | _ => True

/-- The tasks that store to a flag. -/
def touchesFlag : Task → Bool
  | .syncWatcher .. | .keepWatcher .. | .syncGlobalWatcher .. | .keepGlobalWatcher ..
  | .watcherCompare .. | .globalWatcherCompare .. | .pauseWatch .. | .resumeWatch .. => true
  | _ => false

section Accesses

variable {env : Env} {w : World} {t : Task}

/-- A delivered result stores no flag. -/
theorem deliverEffects_flags {run service now : String} {result : Except String Unit}
    {hd : HandleId} {value : Bool} :
    .storePaused hd value ∉ deliverEffects w run service now result := by
  intro h
  rcases mem_deliver h with ⟨handle, heq⟩ | ⟨reason, heq⟩ | heq <;> cases heq

/-- A task that touches no flag stores none. -/
theorem storePaused_not_mem (h : touchesFlag t = false) (hd : HandleId) (value : Bool) :
    .storePaused hd value ∉ effects env w t := by
  intro hmem
  cases t with
  | syncWatcher | keepWatcher | syncGlobalWatcher | keepGlobalWatcher | watcherCompare
  | globalWatcherCompare | pauseWatch | resumeWatch => cases h
  | stopRemoved job removed todo | stopUnits run kill purge todo =>
      cases todo with
      | nil => cases hmem
      | cons name rest => simp [effects] at hmem
  | boot jobs =>
      cases jobs with
      | nil => simp [effects] at hmem
      | cons job jobs => cases job <;> cases hmem
  | startUnit job prepared name rest => simp [effects] at hmem
  | _ =>
      simp only [effects] at hmem
      repeat' split at hmem
      all_goals simp [deliverEffects_flags] at hmem

end Accesses

section Loose

variable {w w' w'' : World}

theorem Loose.refl (w : World) : Loose w w :=
  ⟨fun _ record' hget => Or.inr ⟨record', hget, Still.refl record'⟩, rfl, Nat.le_refl _⟩

theorem Still.trans {a b c : ServiceRecord} (hab : Still a b) (hbc : Still b c) : Still a c where
  paused := hbc.paused.trans hab.paused
  watch := by
    rcases hbc.watch with hnone | hsame
    · exact Or.inl hnone
    · rw [hsame]
      exact hab.watch

/-- Two such steps are one. -/
theorem Loose.trans (h : Loose w w') (h' : Loose w' w'') : Loose w w'' where
  records := by
    intro key record'' hget
    rcases h'.records key record'' hget with hnone | ⟨record', hrecord', hstill'⟩
    · exact Or.inl hnone
    · rcases h.records key record' hrecord' with hnone | ⟨record, hrecord, hstill⟩
      · rcases hstill'.watch with hnone' | hsame
        · exact Or.inl hnone'
        · exact Or.inl (hsame.trans hnone)
      · exact Or.inr ⟨record, hrecord, hstill.trans hstill'⟩
  flags := h'.flags.trans h.flags
  handles := Nat.le_trans h.handles h'.handles

/-- The record of a service after a locked step on a run. -/
theorem recordOf_lock {id : String} {op : RunOp} {key : Key} {record' : ServiceRecord}
    (h : recordOf (w.lock id op) key = some record') :
    recordOf w key = some record' ∨ ∃ r service, key = .service id service
      ∧ w.runs[id]? = some r ∧ (op.apply r).1.services[service]? = some record' := by
  rw [World.lock] at h
  cases hget : w.runs[id]? with
  | none =>
      rw [hget] at h
      exact Or.inl h
  | some r =>
      rw [hget] at h
      cases key with
      | global key => exact Or.inl h
      | service run service =>
          simp only [recordOf, Std.ExtTreeMap.getElem?_insert] at h
          split at h
          · next heq =>
              rw [Std.LawfulEqCmp.compare_eq_iff_eq] at heq
              subst heq
              exact Or.inr ⟨r, service, rfl, rfl, h⟩
          · exact Or.inl h

/-- A locked step on a global changes the record of this global only. -/
theorem recordOf_lockGlobal {name : String} {op : GlobalOp} {key : Key} {record' : ServiceRecord}
    (h : recordOf (w.lockGlobal name op) key = some record') :
    recordOf w key = some record' ∨ ∃ global, key = .global name
      ∧ w.globals[name]? = some global ∧ (op.apply global).1.service = record' := by
  rw [World.lockGlobal] at h
  cases hget : w.globals[name]? with
  | none =>
      rw [hget] at h
      exact Or.inl h
  | some global =>
      rw [hget] at h
      cases key with
      | service run service => exact Or.inl h
      | global key =>
          simp only [recordOf, Std.ExtTreeMap.getElem?_insert] at h
          split at h
          · next heq =>
              rw [Std.LawfulEqCmp.compare_eq_iff_eq] at heq
              subst heq
              exact Or.inr ⟨global, rfl, rfl, Option.some.inj h⟩
          · exact Or.inl h

/-- A locked step leaves the flags. -/
theorem lock_paused (id : String) (op : RunOp) : (w.lock id op).paused = w.paused := by
  rw [World.lock]
  split <;> rfl

theorem lockGlobal_paused (key : String) (op : GlobalOp) :
    (w.lockGlobal key op).paused = w.paused := by
  rw [World.lockGlobal]
  split <;> rfl

/-- The records of a world after a change, each from one that was there. -/
def Stills (w w' : World) : Prop :=
  ∀ (key : Key) (record' : ServiceRecord), recordOf w' key = some record' →
    ∃ record, recordOf w key = some record ∧ Still record record'

theorem Stills.refl (w : World) : Stills w w :=
  fun _ record' hget => ⟨record', hget, Still.refl record'⟩

/-- A locked step that sets no watch keeps every record still. -/
theorem stills_lock {op : RunOp} (h : setsWatch op = false) (id : String) :
    Stills w (w.lock id op) := by
  intro key record' hget
  rcases recordOf_lock hget with hsame | ⟨r, service, rfl, hrun, hrecord'⟩
  · exact ⟨record', hsame, Still.refl record'⟩
  · obtain ⟨record, hrecord, hstill⟩ := stillIn_apply h r service record' hrecord'
    refine ⟨record, ?_, hstill⟩
    rw [recordOf, hrun, Option.bind_some, hrecord]

/-- The same of a global. -/
theorem stills_lockGlobal {op : GlobalOp} (h : ∀ fresh, op ≠ .keepWatcher fresh)
    (name : String) : Stills w (w.lockGlobal name op) := by
  intro key record' hget
  rcases recordOf_lockGlobal hget with hsame | ⟨global, rfl, hglobal, rfl⟩
  · exact ⟨record', hsame, Still.refl record'⟩
  · refine ⟨global.service, ?_, still_globalApply h global⟩
    rw [recordOf, hglobal, Option.map_some]

/-- Still records with the same flags are loose. -/
theorem Stills.loose (h : Stills w w') (hflags : w'.paused = w.paused)
    (hnext : w'.nextHandle = w.nextHandle) : Loose w w' :=
  ⟨fun key record' hget => Or.inr (h key record' hget), hflags, Nat.le_of_eq hnext.symm⟩

/-- Where the record of a key comes from, after an access. -/
inductive Leaves (w : World) (e : Effect) (key : Key) (record' : ServiceRecord) : Prop where
  | still (record : ServiceRecord) (hrecord : recordOf w key = some record)
      (hstill : Still record record')
  | keeps (record : ServiceRecord) (hrecord : recordOf w key = some record)
      (hpaused : record'.runtime.watchPaused = record.runtime.watchPaused) (hwild : ¬ Tame e)
  | sets (run name : String) (service : Option String) (value : Bool) (record : ServiceRecord)
      (hkey : key = .service run name) (heffect : e = .lock run (.setWatchPaused service value))
      (hrecord : recordOf w key = some record)
      (hset : Pausable service name record → record'.runtime.watchPaused = value)
      (hkept : ¬ Pausable service name record →
        record'.runtime.watchPaused = record.runtime.watchPaused)
  | stores (run name : String) (hkey : key = .service run name)
      (heffect : e = .lock run (.store name record'))
  | opens (run : RunRecord) (name : String) (heffect : e = .createRun run)
      (hrecord : run.services[name]? = some record')
  | upserts (global : GlobalRecord) (hkey : key = .global global.key)
      (heffect : e = .upsertGlobal global) (hrecord : record' = global.service)

/-- Runs are removed. -/
theorem leaves_runs {e : Effect} {runs : BTreeMap RunRecord} {manifests : BTreeMap PersistedRun}
    {key : Key} {record' : ServiceRecord}
    (hruns : ∀ (id : String) (r : RunRecord), runs[id]? = some r → w.runs[id]? = some r)
    (hget : recordOf { w with runs := runs, manifests := manifests } key = some record') :
    Leaves w e key record' := by
  cases key with
  | global key => exact .still record' hget (Still.refl record')
  | service run service =>
      obtain ⟨r, hrun, hrecord'⟩ := Option.bind_eq_some_iff.mp hget
      refine .still record' ?_ (Still.refl record')
      rw [recordOf, hruns run r hrun, Option.bind_some, hrecord']

/-- **WHERE RECORDS COME FROM**: an access leaves a record as it was to its watcher,
    gives it a handle, sets its pause, or puts a new one in its place. -/
theorem leaves_apply {e : Effect} {key : Key} {record' : ServiceRecord}
    (hget : recordOf (e.apply w) key = some record') : Leaves w e key record' := by
  have hsame : recordOf w key = some record' → Leaves w e key record' :=
    fun hsame => .still record' hsame (Still.refl record')
  cases e with
  | lock id op =>
      rcases recordOf_lock hget with hbefore | ⟨r, name, rfl, hrun, hrecord'⟩
      · exact hsame hbefore
      · have hbefore : ∀ {record}, r.services[name]? = some record →
            recordOf w (.service id name) = some record := by
          intro record hrecord
          rw [recordOf, hrun, Option.bind_some, hrecord]
        cases hsets : setsWatch op with
        | false =>
            obtain ⟨record, hrecord, hstill⟩ := stillIn_apply hsets r name record' hrecord'
            exact .still record (hbefore hrecord) hstill
        | true =>
            cases op with
            | keepWatcher service fresh =>
                rw [RunOp.apply, updateService_services] at hrecord'
                split at hrecord'
                · obtain ⟨record, hrecord, rfl⟩ := Option.map_eq_some_iff.mp hrecord'
                  refine .keeps record (hbefore hrecord) ?_ (fun htame => htame)
                  rw [watchSyncKeep_runtime]
                · exact hsame (hbefore hrecord')
            | setWatchPaused service value =>
                obtain ⟨record, hrecord, -, hset, hkept⟩ := setWatchPaused_services hrecord'
                exact .sets id name service value record rfl rfl (hbefore hrecord) hset hkept
            | store service record =>
                rw [RunOp.apply, replaceServiceRecord_services] at hrecord'
                split at hrecord'
                · next heq =>
                    subst heq
                    cases hrecord'
                    exact .stores id name rfl rfl
                · exact hsame (hbefore hrecord')
            | _ => cases hsets
  | lockGlobal name op =>
      rcases recordOf_lockGlobal hget with hbefore | ⟨global, rfl, hglobal, rfl⟩
      · exact hsame hbefore
      · have hbefore : recordOf w (.global name) = some global.service := by
          rw [recordOf, hglobal, Option.map_some]
        cases op with
        | keepWatcher fresh =>
            refine .keeps global.service hbefore ?_ (fun htame => htame)
            exact congrArg (·.watchPaused) (watchSyncKeep_runtime global.service fresh)
        | _ =>
            exact .still global.service hbefore
              (still_globalApply (fun _ heq => by cases heq) global)
  | upsertGlobal global =>
      cases key with
      | service run service => exact hsame hget
      | global key =>
          simp only [recordOf, Effect.apply, World.upsertGlobal, Std.ExtTreeMap.getElem?_insert]
            at hget
          split at hget
          · next heq =>
              rw [Std.LawfulEqCmp.compare_eq_iff_eq] at heq
              subst heq
              exact .upserts global rfl rfl (Option.some.inj hget).symm
          · exact hsame hget
  | createRun run =>
      cases key with
      | global key => exact hsame hget
      | service id service =>
          simp only [recordOf, Effect.apply, World.createRun, Std.ExtTreeMap.getElem?_insert]
            at hget
          split at hget
          · exact .opens run service rfl hget
          · exact hsame hget
  | purge id =>
      refine leaves_runs (fun id' r hget => ?_) hget
      rw [Std.ExtTreeMap.getElem?_erase] at hget
      split at hget
      · cases hget
      · exact hget
  | collect expired =>
      refine leaves_runs (fun id r hget => ?_) hget
      rw [Std.ExtTreeMap.getElem?_filter'] at hget
      exact (Option.filter_eq_some_iff.mp hget).1
  | raise handle | storePaused handle value | allocate | unit action owner unitName
  | beginLaunch key' | writeManifest manifest | writeGlobalManifest manifest | serve =>
      exact hsame (by cases key <;> exact hget)

/-- No access gives a handle back. -/
theorem nextHandle_le_apply (e : Effect) (w : World) : w.nextHandle ≤ (e.apply w).nextHandle := by
  cases e with
  | lock id op => exact Nat.le_of_eq (lock_nextHandle w id op).symm
  | lockGlobal key op => exact Nat.le_of_eq (lockGlobal_nextHandle w key op).symm
  | allocate => exact Nat.le_succ _
  | _ => exact Nat.le_refl _

/-- Most accesses leave watch handles, pauses and flags alone. -/
theorem loose_apply {e : Effect} (h : Tame e) : Loose w (e.apply w) where
  records := by
    intro key record' hget
    cases leaves_apply hget with
    | still record hrecord hstill => exact Or.inr ⟨record, hrecord, hstill⟩
    | keeps record hrecord hpaused hwild => exact absurd h hwild
    | sets run name service value record hkey heffect => rw [heffect] at h; exact h.elim
    | stores run name hkey heffect => rw [heffect] at h; exact Or.inl h
    | opens run name heffect hrecord =>
        rw [heffect] at h
        have hempty : run.services = ∅ := h
        rw [hempty] at hrecord
        simp at hrecord
    | upserts global hkey heffect hrecord => rw [heffect] at h; exact Or.inl (hrecord ▸ h)
  flags := by
    cases e with
    | lock id op => exact lock_paused id op
    | lockGlobal key op => exact lockGlobal_paused key op
    | storePaused handle value => exact h.elim
    | _ => rfl
  handles := nextHandle_le_apply e w

/-- **TAME ACCESSES ARE LOOSE**, one after the other. -/
theorem loose_effects {es : List Effect} (h : ∀ e ∈ es, Tame e) :
    Loose w (es.foldl Effect.apply w) := by
  induction es generalizing w with
  | nil => exact Loose.refl w
  | cons e es ih =>
      exact (loose_apply (h e List.mem_cons_self)).trans
        (ih (fun e' he' => h e' (List.mem_cons_of_mem e he')))

/-- The accesses of a task that touches no flag are tame. -/
theorem tame_of_makes {env : Env} {t : Task} {e : Effect} (hmakes : Makes env w t e)
    (h : touchesFlag t = false) (hstore : ∀ hd value, e ≠ .storePaused hd value) : Tame e := by
  cases hmakes with
  | aside t haside =>
      cases e with
      | storePaused handle value => exact absurd rfl (hstore handle value)
      | unit | beginLaunch | writeGlobalManifest | serve => trivial
      | _ => cases haside
  | keepWatcher | keepGlobalWatcher | pauseWatch | resumeWatch => cases h
  | createRun job baseEnv hfree => rfl
  | checkGlobal target existing rest caller prepared => rfl
  | waitGlobal target prepared createdAt launch start rest caller =>
      simp only [Tame, startedGlobal]
      split <;> rfl
  | storeFailedInit job prepared error name rest => rfl
  | storeResult job prepared launch start name rest => cases start <;> rfl
  | waitRestart r hmem | waitReadiness run service launch hmem
  | handleReadiness job launch name rest hmem =>
      rcases DevstackEffects.mem_deliver hmem with ⟨handle, rfl⟩ | ⟨reason, rfl⟩ | rfl <;> trivial
  | _ => trivial

/-- So is its step. -/
theorem loose_step {env : Env} {t : Task} (h : touchesFlag t = false) :
    Loose w (t.step env w).1 := by
  rw [step_world]
  refine loose_effects (fun e he => tame_of_makes (makes_of_mem he) h ?_)
  rintro hd value rfl
  exact storePaused_not_mem h hd value he

end Loose

-- ── watchers ──────────────────────────────────────────────────────────────────

/-- A watcher that waits for its restart still has its handle. -/
def callerSpeaks : Caller → List (Key × HandleId)
  | .watcher t => [(.service t.run t.service, t.handle)]
  | .request | .monitor _ => []

/-- What a call returns to may be a watcher. -/
def contSpeaks : Cont → List (Key × HandleId)
  | .restarted caller => callerSpeaks caller
  | _ => []

/-- The handles a task may store to as a watcher, each with the record it then reads. -/
def speaks : Task → List (Key × HandleId)
  | .keepWatcher t k => (.service t.run t.service, t.handle) :: contSpeaks k
  | .watcherTop t | .watcherEvent t | .watcherCompare t _ =>
      [(.service t.run t.service, t.handle)]
  | .keepGlobalWatcher t k => (.global t.key, t.handle) :: contSpeaks k
  | .globalWatcherTop t | .globalWatcherEvent t | .globalWatcherCompare t _ | .restartGlobal t
  | .persistGlobalRestart t _ _ | .writeGlobalRestart _ t _ _ | .restartGlobalUnit t _ _ =>
      [(.global t.key, t.handle)]
  | .restart _ _ _ caller => callerSpeaks caller
  | .loadPostInit r | .restartUnit r | .restarted r | .waitRestart r => callerSpeaks r.caller
  | .persist _ k | .write _ k | .persistGlobal _ k | .writeGlobal _ k | .syncWatcher _ _ k
  | .syncGlobalWatcher _ k | .syncCapture _ _ k | .keepCapture _ _ k | .status _ k
  | .writeStatus _ _ k => contSpeaks k
  | _ => []

/-- The record a task's step may start a watcher for. -/
def watches : Task → Option Key
  | .syncWatcher run service _ => some (.service run service)
  | .syncGlobalWatcher key _ => some (.global key)
  | _ => none

/-- A call returns with no handle that it did not have. -/
theorem speaks_resume (k : Cont) (result : Except String Unit) {t' : Task}
    (h : t' ∈ k.resume result) {p : Key × HandleId} (hp : p ∈ speaks t') : p ∈ contSpeaks k := by
  cases resumes_of_mem h with
  | watcherTop t => exact hp
  | _ => cases hp

/-- **WHERE WATCHERS COME FROM**: a watcher was one before the step, or was started in it
    with a handle that is new. -/
theorem speaks_succ {env : Env} {w : World} {t t' : Task} (h : Succ env w t t')
    {p : Key × HandleId} (hp : p ∈ speaks t') :
    p ∈ speaks t ∨ (watches t = some p.1 ∧ p.2 = w.nextHandle) := by
  cases h with
  | persistGone hmem | writeResume hmem | persistGlobalGone hmem | writeGlobalResume hmem
  | syncWatcherResume hmem | syncGlobalWatcherResume hmem | syncCaptureResume hmem
  | keepCaptureResume hmem | statusGone hmem | writeStatusResume hmem =>
      exact Or.inl (speaks_resume _ _ hmem hp)
  | keepWatcherResume hmem | keepGlobalWatcherResume hmem =>
      exact Or.inl (List.mem_cons_of_mem _ (speaks_resume _ _ hmem hp))
  | listRuns hmem | resumeWatch hmem => cases speaks_resume _ _ hmem hp
  | restartGone hmem | loadPostInitFailed hmem | restartUnitFailed hmem | waitRestartGone hmem =>
      exact Or.inl (speaks_resume (.restarted _) (.ok ()) hmem hp)
  | ensureGlobalsDone hmem | checkGlobalFailed hmem =>
      cases globalsResumes_of_mem hmem <;> cases hp
  | syncWatcherKeep run service k | syncGlobalWatcherKeep key k =>
      rcases List.mem_cons.mp hp with rfl | hp
      · exact Or.inr ⟨rfl, rfl⟩
      · exact Or.inl hp
  | syncWatcherSpawn run service k | syncGlobalWatcherSpawn key k =>
      rw [List.mem_singleton.mp hp]
      exact Or.inr ⟨rfl, rfl⟩
  | _ => first | exact Or.inl hp | cases hp

-- ── the invariant ─────────────────────────────────────────────────────────────

/-- The watch handle of a record was made for that record, and its flag is the record's
    pause. -/
def Agree (owner : HandleId → Key) (w : World) : Prop :=
  ∀ (key : Key) (record : ServiceRecord) (hd : HandleId), recordOf w key = some record →
    record.handles.watch = some hd →
    owner hd = key ∧ hd < w.nextHandle ∧ (hd ∈ w.paused ↔ record.runtime.watchPaused = true)

/-- The handles of watchers were made for the records they read. -/
def Known (owner : HandleId → Key) (bound : HandleId) (ps : List (Key × HandleId)) : Prop :=
  ∀ p ∈ ps, owner p.2 = p.1 ∧ p.2 < bound

section Agree

variable {owner : HandleId → Key} {w w' : World}

/-- A loose step keeps the agreement. -/
theorem agree_loose (h : Agree owner w) (hloose : Loose w w') : Agree owner w' := by
  intro key record' hd hget hwatch
  rcases hloose.records key record' hget with hnone | ⟨record, hrecord, hstill⟩
  · rw [hnone] at hwatch
    cases hwatch
  · rcases hstill.watch with hnone | hsame
    · rw [hnone] at hwatch
      cases hwatch
    · obtain ⟨howner, hlt, hflag⟩ := h key record hd hrecord (hsame ▸ hwatch)
      refine ⟨howner, Nat.lt_of_lt_of_le hlt hloose.handles, ?_⟩
      rw [hloose.flags, hstill.paused]
      exact hflag

/-- A stored flag is the last one stored. -/
theorem mem_storePaused {hd hd' : HandleId} {value : Bool} :
    hd ∈ (w.storePaused hd' value).paused ↔ if hd = hd' then value = true else hd ∈ w.paused := by
  cases value with
  | true => by_cases heq : hd = hd' <;> simp [World.storePaused, heq]
  | false => by_cases heq : hd = hd' <;> simp [World.storePaused, heq]

/-- A flag is stored to what the record it belongs to says; the record may take its
    handle in the same step. -/
theorem agree_settle {key : Key} {hd : HandleId} {value : Bool} (h : Agree owner w)
    (howner : owner hd = key) (hlt : hd < w'.nextHandle) (hnext : w.nextHandle ≤ w'.nextHandle)
    (hrecords : ∀ (key' : Key) (record' : ServiceRecord), recordOf w' key' = some record' →
      (∃ record, recordOf w key' = some record ∧ Still record record')
        ∨ (key' = key ∧ record'.handles.watch = some hd))
    (hvalue : ∀ record', recordOf w' key = some record' → record'.runtime.watchPaused = value)
    (hflags : w'.paused = (w.storePaused hd value).paused) : Agree owner w' := by
  intro key' record' hd' hget hwatch
  rw [hflags, mem_storePaused]
  rcases hrecords key' record' hget with ⟨record, hrecord, hstill⟩ | ⟨rfl, hnew⟩
  · rcases hstill.watch with hnone | hsame
    · rw [hnone] at hwatch
      cases hwatch
    · obtain ⟨howner', hlt', hflag⟩ := h key' record hd' hrecord (hsame ▸ hwatch)
      refine ⟨howner', Nat.lt_of_lt_of_le hlt' hnext, ?_⟩
      by_cases heq : hd' = hd
      · subst heq
        rw [if_pos rfl, hvalue record' (howner ▸ howner' ▸ hget)]
      · rw [if_neg heq, hstill.paused]
        exact hflag
  · rw [hnew] at hwatch
    cases hwatch
    refine ⟨howner, hlt, ?_⟩
    rw [if_pos rfl, hvalue record' hget]

/-- A step that stores to a flag what the record says, and makes no other change of
    handles, pauses and flags. -/
theorem agree_store (w' : World) {key : Key} {hd : HandleId} {record : ServiceRecord}
    (h : Agree owner w) (hstills : Stills w w') (hflags : w'.paused = w.paused)
    (hnext : w.nextHandle ≤ w'.nextHandle) (howner : owner hd = key) (hlt : hd < w'.nextHandle)
    (hrecord : recordOf w key = some record) :
    Agree owner (w'.storePaused hd record.runtime.watchPaused) := by
  have hstills' : Stills w (w'.storePaused hd record.runtime.watchPaused) :=
    fun key' record' hget => hstills key' record' (by cases key' <;> exact hget)
  have hstored : (w'.storePaused hd record.runtime.watchPaused).paused
      = (w.storePaused hd record.runtime.watchPaused).paused := by
    simp only [World.storePaused, hflags]
  refine agree_settle h howner hlt hnext
    (fun key' record' hget => Or.inl (hstills' key' record' hget))
    (fun record' hget => ?_) hstored
  obtain ⟨before, hbefore, hstill⟩ := hstills' key record' hget
  rw [hrecord, Option.some.injEq] at hbefore
  rw [hstill.paused, hbefore]

/-- Handles that are not made yet may get any owner. -/
theorem agree_owner {owner' : HandleId → Key} (h : Agree owner w)
    (hsame : ∀ hd < w.nextHandle, owner' hd = owner hd) : Agree owner' w := by
  intro key record hd hget hwatch
  obtain ⟨howner, hlt, hflag⟩ := h key record hd hget hwatch
  exact ⟨(hsame hd hlt).trans howner, hlt, hflag⟩

end Agree

/-- Handles stay known when new ones are made. -/
theorem Known.mono {owner : HandleId → Key} {bound bound' : HandleId}
    {ps : List (Key × HandleId)} (h : Known owner bound ps) (hle : bound ≤ bound') :
    Known owner bound' ps :=
  fun p hp => ⟨(h p hp).1, Nat.lt_of_lt_of_le (h p hp).2 hle⟩

-- ── the steps that store to a flag ────────────────────────────────────────────

section Steps

variable {owner : HandleId → Key} {env : Env} {w : World}

/-- The flag of a watcher that stays is set to what the record says. -/
theorem watchSync_keep {record : ServiceRecord} {handle : HandleId} {paused : Bool}
    (h : watchSync record = .keep handle paused) :
    record.handles.watch = some handle ∧ paused = record.runtime.watchPaused := by
  rw [watchSync] at h
  split at h
  · cases h
  · split at h
    · next hwatch =>
        cases h
        exact ⟨hwatch, rfl⟩
    · cases h

/-- A new watcher starts with what the record says. -/
theorem watchSync_start {record : ServiceRecord} {paused : Bool}
    (h : watchSync record = .start paused) : paused = record.runtime.watchPaused := by
  rw [watchSync] at h
  split at h
  · cases h
  · split at h
    · cases h
    · cases h
      rfl

/-- The placed handle is the new one. -/
theorem watchSyncKeep_watch {fresh : HandleId} {record : ServiceRecord}
    (h : watchSyncKeeps record = true) :
    (watchSyncKeep fresh record).handles.watch = some fresh := by
  rw [watchSyncKeep, if_pos h]

/-- The record takes the handle of its new watcher, or another did before. -/
theorem agree_keep {w' : World} {key : Key} {fresh : HandleId} {record : ServiceRecord}
    (h : Agree owner w) (howner : owner fresh = key) (hlt : fresh < w.nextHandle)
    (hrecord : recordOf w key = some record) (hflags : w'.paused = w.paused)
    (hnext : w'.nextHandle = w.nextHandle)
    (hrecords : ∀ key' record', recordOf w' key' = some record' →
      recordOf w key' = some record' ∨ (key' = key ∧ record' = watchSyncKeep fresh record)) :
    Agree owner (if watchSyncKeeps record then w'.storePaused fresh record.runtime.watchPaused
      else w') := by
  cases hkeeps : watchSyncKeeps record with
  | false =>
      rw [if_neg (by simp)]
      refine agree_loose h (Stills.loose (fun key' record' hget => ?_) hflags hnext)
      rcases hrecords key' record' hget with hsame | ⟨rfl, rfl⟩
      · exact ⟨record', hsame, Still.refl record'⟩
      · refine ⟨record, hrecord, ?_⟩
        rw [watchSyncKeep, if_neg (by simp [hkeeps])]
        exact Still.refl record
  | true =>
      rw [if_pos rfl]
      have hstored : (w'.storePaused fresh record.runtime.watchPaused).paused
          = (w.storePaused fresh record.runtime.watchPaused).paused := by
        simp only [World.storePaused, hflags]
      have hrecords' : ∀ key' record',
          recordOf (w'.storePaused fresh record.runtime.watchPaused) key' = some record' →
          recordOf w key' = some record' ∨ (key' = key ∧ record' = watchSyncKeep fresh record) :=
        fun key' record' hget => hrecords key' record' (by cases key' <;> exact hget)
      refine agree_settle h howner (Nat.lt_of_lt_of_eq hlt hnext.symm) (Nat.le_of_eq hnext.symm)
        (fun key' record' hget => ?_) (fun record' hget => ?_) hstored
      · rcases hrecords' key' record' hget with hsame | ⟨rfl, rfl⟩
        · exact Or.inl ⟨record', hsame, Still.refl record'⟩
        · exact Or.inr ⟨rfl, watchSyncKeep_watch hkeeps⟩
      · rcases hrecords' key record' hget with hsame | ⟨-, rfl⟩
        · rw [hrecord, Option.some.injEq] at hsame
          rw [hsame]
        · rw [watchSyncKeep_runtime]

-- ── `pause_watch` and `resume_watch` ──────────────────────────────────────────

/-- A pause is stored in all handles, and nowhere else. -/
theorem storePaused_foldl (hds : List HandleId) (value : Bool) :
    (hds.foldl (fun w hd => w.storePaused hd value) w).runs = w.runs
      ∧ (hds.foldl (fun w hd => w.storePaused hd value) w).globals = w.globals
      ∧ (hds.foldl (fun w hd => w.storePaused hd value) w).nextHandle = w.nextHandle
      ∧ ∀ hd, hd ∈ (hds.foldl (fun w hd => w.storePaused hd value) w).paused
        ↔ if hd ∈ hds then value = true else hd ∈ w.paused := by
  induction hds generalizing w with
  | nil => exact ⟨rfl, rfl, rfl, fun hd => by simp⟩
  | cons first rest ih =>
      obtain ⟨hruns, hglobals, hnext, hmem⟩ := ih (w := w.storePaused first value)
      refine ⟨hruns, hglobals, hnext, fun hd => ?_⟩
      rw [List.foldl_cons, hmem hd, mem_storePaused]
      by_cases hrest : hd ∈ rest <;> by_cases hfirst : hd = first <;> simp [hrest, hfirst]

/-- The handles that `pause_watch` writes are those of the services it names. -/
theorem mem_pausableHandles {r : RunRecord} {service : Option String} {hd : HandleId} :
    hd ∈ pausableHandles r service ↔ ∃ (name : String) (record : ServiceRecord),
      r.services[name]? = some record ∧ Pausable service name record
        ∧ record.handles.watch = some hd := by
  rw [pausableHandles, List.mem_flatMap]
  constructor
  · rintro ⟨⟨name, record⟩, hkv, hmem⟩
    split at hmem
    · next hpausable =>
        exact ⟨name, record, Std.ExtTreeMap.mem_toList_iff_getElem?_eq_some.mp hkv, hpausable,
          Option.mem_toList.mp hmem⟩
    · cases hmem
  · rintro ⟨name, record, hget, ⟨hnamed, hauto⟩, hwatch⟩
    refine ⟨(name, record), Std.ExtTreeMap.mem_toList_iff_getElem?_eq_some.mpr hget, ?_⟩
    simp [hnamed, hauto, hwatch]

/-- A request sets the pause of its records and the flags of their handles alike. -/
theorem agree_setPaused {run : String} {r : RunRecord} {service : Option String} {value : Bool}
    (h : Agree owner w) (hrun : w.runs[run]? = some r) :
    Agree owner (setPausedStep w run r service value) := by
  obtain ⟨hruns, hglobals, hnext, hmem⟩ :=
    storePaused_foldl (w := w.lock run (.setWatchPaused service value))
      (pausableHandles r service) value
  intro key record' hd hget hwatch
  rw [setPausedStep] at hget ⊢
  have hget' : recordOf (w.lock run (.setWatchPaused service value)) key = some record' := by
    cases key with
    | service run' name => simpa only [recordOf, hruns] using hget
    | global name => simpa only [recordOf, hglobals] using hget
  rw [hnext, hmem hd, lock_paused, lock_nextHandle]
  -- a handle the request stores to belongs to a record it set
  have howned : hd ∈ pausableHandles r service → ∃ name record, owner hd = .service run name
      ∧ r.services[name]? = some record ∧ Pausable service name record := by
    intro hhd
    obtain ⟨name, record, hrecord, hpausable, hwatch'⟩ := mem_pausableHandles.mp hhd
    refine ⟨name, record, (h (.service run name) record hd ?_ hwatch').1, hrecord, hpausable⟩
    rw [recordOf, hrun, Option.bind_some, hrecord]
  have hother : (∀ name record, key = .service run name → r.services[name]? = some record →
      ¬ Pausable service name record) → owner hd = key → hd ∉ pausableHandles r service := by
    intro hnot howner hhd
    obtain ⟨name, record, howner', hrecord, hpausable⟩ := howned hhd
    exact hnot name record (howner.symm.trans howner') hrecord hpausable
  rcases recordOf_lock hget' with hsame | ⟨r', name, rfl, hrun', hrecord'⟩
  · obtain ⟨howner, hlt, hflag⟩ := h key record' hd hsame hwatch
    refine ⟨howner, hlt, ?_⟩
    by_cases hhd : hd ∈ pausableHandles r service
    · -- the record is one the request sets, and was already as it sets it
      obtain ⟨name, record, howner', hrecord, hpausable⟩ := howned hhd
      have hkey : key = .service run name := howner.symm.trans howner'
      subst hkey
      rw [if_pos hhd]
      rw [recordOf, World.lock, hrun] at hget'
      simp only [Std.ExtTreeMap.getElem?_insert_self, Option.bind_some] at hget'
      obtain ⟨before, hbefore, -, hset, -⟩ := setWatchPaused_services hget'
      rw [hrecord, Option.some.injEq] at hbefore
      rw [hset (hbefore ▸ hpausable)]
    · rw [if_neg hhd]
      exact hflag
  · rw [hrun, Option.some.injEq] at hrun'
    subst hrun'
    obtain ⟨record, hrecord, hhandles, hset, hkept⟩ := setWatchPaused_services hrecord'
    have hbefore : recordOf w (.service run name) = some record := by
      rw [recordOf, hrun, Option.bind_some, hrecord]
    rw [hhandles] at hwatch
    obtain ⟨howner, hlt, hflag⟩ := h (.service run name) record hd hbefore hwatch
    refine ⟨howner, hlt, ?_⟩
    by_cases hpausable : Pausable service name record
    · rw [if_pos (mem_pausableHandles.mpr ⟨name, record, hrecord, hpausable, hwatch⟩),
        hset hpausable]
    · have hhd : hd ∉ pausableHandles r service := by
        refine hother (fun name' before hkey hget' => ?_) howner
        cases hkey
        rw [hrecord, Option.some.injEq] at hget'
        exact hget' ▸ hpausable
      rw [if_neg hhd, hkept hpausable]
      exact hflag

-- ── every step ────────────────────────────────────────────────────────────────

/-- **A STEP KEEPS FLAGS AND RECORDS TOGETHER**, if a new handle is for the record whose
    watcher it starts. -/
theorem agree_step {t : Task} (h : Agree owner w) (hknown : Known owner w.nextHandle (speaks t))
    (hfresh : ∀ key, watches t = some key → owner w.nextHandle = key) :
    Agree owner (t.step env w).1 := by
  cases htouches : touchesFlag t with
  | false => exact agree_loose h (loose_step htouches)
  | true =>
      cases t with
      | syncWatcher run service k =>
          simp only [Task.step]
          split
          · exact h
          · next record hrecord =>
              split
              · exact agree_loose h ((stills_lock rfl run).loose (lock_paused run _)
                  (lock_nextHandle w run _))
              · next handle paused hsync =>
                  obtain ⟨hwatch, rfl⟩ := watchSync_keep hsync
                  obtain ⟨howner, hlt, -⟩ := h (.service run service) record handle hrecord hwatch
                  exact agree_store w h (Stills.refl w) rfl (Nat.le_refl _) howner hlt hrecord
              · next paused hsync =>
                  rw [watchSync_start hsync]
                  split
                  · exact h
                  · exact agree_store w.allocate h (Stills.refl w) rfl (Nat.le_succ _)
                      (hfresh _ rfl) (Nat.lt_succ_self _) hrecord
      | syncGlobalWatcher key k =>
          simp only [Task.step]
          split
          · exact h
          · next global hglobal =>
              have hrecord : recordOf w (.global key) = some global.service := by
                rw [recordOf, hglobal, Option.map_some]
              split
              · exact agree_loose h ((stills_lockGlobal (fun _ heq => by cases heq) key).loose
                  (lockGlobal_paused key _) (lockGlobal_nextHandle w key _))
              · next handle paused hsync =>
                  obtain ⟨hwatch, rfl⟩ := watchSync_keep hsync
                  obtain ⟨howner, hlt, -⟩ := h (.global key) global.service handle hrecord hwatch
                  exact agree_store w h (Stills.refl w) rfl (Nat.le_refl _) howner hlt hrecord
              · next paused hsync =>
                  rw [watchSync_start hsync]
                  split
                  · exact h
                  · exact agree_store w.allocate h (Stills.refl w) rfl (Nat.le_succ _)
                      (hfresh _ rfl) (Nat.lt_succ_self _) hrecord
      | keepWatcher t k =>
          obtain ⟨howner, hlt⟩ := hknown _ List.mem_cons_self
          simp only [Task.step]
          split
          · exact agree_loose h (loose_apply (e := .raise t.handle) trivial)
          · next record hrecord =>
              refine agree_keep h howner hlt hrecord (lock_paused t.run _)
                (lock_nextHandle w t.run _) (fun key' record' hget => ?_)
              rcases recordOf_lock hget with hsame | ⟨r, name, rfl, hrun, hrecord'⟩
              · exact Or.inl hsame
              · rw [RunOp.apply, updateService_services] at hrecord'
                split at hrecord'
                · next heq =>
                    subst heq
                    rw [hrun, Option.bind_some] at hrecord
                    rw [hrecord, Option.map_some, Option.some.injEq] at hrecord'
                    exact Or.inr ⟨rfl, hrecord'.symm⟩
                · refine Or.inl ?_
                  rw [recordOf, hrun, Option.bind_some, hrecord']
      | keepGlobalWatcher t k =>
          obtain ⟨howner, hlt⟩ := hknown _ List.mem_cons_self
          simp only [Task.step]
          split
          · exact agree_loose h (loose_apply (e := .raise t.handle) trivial)
          · next global hglobal =>
              have hrecord : recordOf w (.global t.key) = some global.service := by
                rw [recordOf, hglobal, Option.map_some]
              refine agree_keep h howner hlt hrecord (lockGlobal_paused t.key _)
                (lockGlobal_nextHandle w t.key _) (fun key' record' hget => ?_)
              rcases recordOf_lockGlobal hget with hsame | ⟨global', rfl, hglobal', rfl⟩
              · exact Or.inl hsame
              · rw [hglobal, Option.some.injEq] at hglobal'
                exact Or.inr ⟨rfl, by rw [← hglobal']; rfl⟩
      | watcherCompare t hash =>
          obtain ⟨howner, hlt⟩ := hknown _ List.mem_cons_self
          simp only [Task.step]
          split
          · exact h
          · next record hrecord =>
              exact agree_store _ h (stills_lock rfl t.run) (lock_paused t.run _)
                (Nat.le_of_eq (lock_nextHandle w t.run _).symm) howner
                (Nat.lt_of_lt_of_eq hlt (lock_nextHandle w t.run _).symm) hrecord
      | globalWatcherCompare t hash =>
          obtain ⟨howner, hlt⟩ := hknown _ List.mem_cons_self
          simp only [Task.step]
          split
          · exact h
          · next global hglobal =>
              have hrecord : recordOf w (.global t.key) = some global.service := by
                rw [recordOf, hglobal, Option.map_some]
              exact agree_store _ h (stills_lockGlobal (fun _ heq => by cases heq) t.key)
                (lockGlobal_paused t.key _)
                (Nat.le_of_eq (lockGlobal_nextHandle w t.key _).symm) howner
                (Nat.lt_of_lt_of_eq hlt (lockGlobal_nextHandle w t.key _).symm) hrecord
      | pauseWatch run service | resumeWatch run service =>
          simp only [Task.step]
          split
          · exact h
          · next r hrun =>
              split
              · exact h
              · exact agree_setPaused h hrun
      | _ => cases htouches

/-- A step that makes a watcher made its handle. -/
theorem speaks_step {t t' : Task} (hmem : t' ∈ (t.step env w).2) {p : Key × HandleId}
    (hp : p ∈ speaks t') :
    p ∈ speaks t ∨ (watches t = some p.1 ∧ p.2 = w.nextHandle
      ∧ w.nextHandle < (t.step env w).1.nextHandle) := by
  rcases speaks_succ (succ_of_mem hmem) hp with hold | ⟨hwatches, hnew⟩
  · exact Or.inl hold
  · cases t with
    | syncWatcher run service k | syncGlobalWatcher key k =>
        simp only [Task.step] at hmem ⊢
        split at hmem
        · exact Or.inl (speaks_resume _ _ hmem hp)
        · split at hmem
          · exact Or.inl (speaks_resume _ _ hmem hp)
          · exact Or.inl (speaks_resume _ _ hmem hp)
          · split at hmem
            · exact Or.inl (speaks_resume _ _ hmem hp)
            · exact Or.inr ⟨hwatches, hnew, Nat.lt_succ_self _⟩
    | _ => cases hwatches

/-- No step gives a handle back. -/
theorem nextHandle_step (t : Task) : w.nextHandle ≤ (t.step env w).1.nextHandle := by
  rw [step_world]
  exact List.foldlRecOn (effects env w t) Effect.apply (Nat.le_refl _)
    (fun w' hle e _ => Nat.le_trans hle (nextHandle_le_apply e w'))

end Steps

-- ── runs ──────────────────────────────────────────────────────────────────────

/-- Every handle has an owner, in the records and among the watchers. -/
def Paced (s : Sys) : Prop :=
  ∃ owner, Agree owner s.1 ∧ ∀ t ∈ s.2, Known owner s.1.nextHandle (speaks t)

/-- Every task keeps the owners and the agreement. -/
theorem paced_task {s : Sys} {env : Env} {position : Nat} {t : Task} (h : Paced s)
    (hget : s.2[position]? = some t) : Paced (stepAt Task.step s (position, env)) := by
  obtain ⟨owner, hagree, hknown⟩ := h
  have ht := hknown t (List.mem_of_getElem? hget)
  -- the handle the step may make goes to the record whose watcher it starts
  let owner' : HandleId → Key := fun hd =>
    if hd = s.1.nextHandle then (watches t).getD (owner hd) else owner hd
  have hsame : ∀ hd < s.1.nextHandle, owner' hd = owner hd :=
    fun hd hlt => if_neg (Nat.ne_of_lt hlt)
  have hfresh : ∀ key, watches t = some key → owner' s.1.nextHandle = key := by
    intro key hwatches
    show (if s.1.nextHandle = s.1.nextHandle then _ else _) = key
    rw [if_pos rfl, hwatches, Option.getD_some]
  have hknown' : ∀ {ps}, Known owner s.1.nextHandle ps → Known owner' s.1.nextHandle ps :=
    fun hps p hp => ⟨(hsame p.2 (hps p hp).2).trans (hps p hp).1, (hps p hp).2⟩
  refine ⟨owner', ?_, fun t' ht' => ?_⟩
  · rw [stepAt_some Task.step hget]
    exact agree_step (agree_owner hagree hsame) (hknown' ht) hfresh
  · have hworld : (stepAt Task.step s (position, env)).1 = (t.step env s.1).1 := by
      rw [stepAt_some Task.step hget]
    rw [hworld]
    rcases mem_stepAt Task.step hget ht' with hmem | hmem
    · intro p hp
      rcases speaks_step hmem hp with hold | ⟨hwatches, hnew, hlt⟩
      · exact (hknown' ht).mono (nextHandle_step t) p hold
      · exact ⟨hnew ▸ hfresh p.1 hwatches, hnew ▸ hlt⟩
    · exact (hknown' (hknown t' hmem)).mono (nextHandle_step t)

/-- **EVERY STEP KEEPS THEM**, requests and restarts included. -/
theorem paced_sysStep (s : Sys) (a : Action) (h : Paced s) : Paced (sysStep s a) := by
  cases a with
  | request request =>
      obtain ⟨owner, hagree, hknown⟩ := h
      simp only [sysStep]
      split
      · refine ⟨owner, hagree, fun t ht => ?_⟩
        rcases List.mem_append.mp ht with ht | ht
        · exact hknown t ht
        · rw [List.mem_singleton.mp ht]
          intro p hp
          cases request <;> cases hp
      · exact ⟨owner, hagree, hknown⟩
  | run position env =>
      show Paced (stepAt Task.step s (position, env))
      cases hget : s.2[position]? with
      | none =>
          rw [stepAt_none Task.step hget]
          exact h
      | some t => exact paced_task h hget
  | daemonRestart answers =>
      obtain ⟨owner, -, -⟩ := h
      refine ⟨owner, fun key record hd hget hwatch => ?_, fun t ht p hp => ?_⟩
      · -- the restored records have no handles
        cases key with
        | service run service =>
            obtain ⟨r, hrun, hrecord⟩ := Option.bind_eq_some_iff.mp hget
            obtain ⟨manifest, prepared, saved, p, -, -, -, -, -, rfl⟩ :=
              stored_restart ⟨r, hrun, hrecord⟩
            cases hwatch
        | global key =>
            obtain ⟨global, hglobal, rfl⟩ := Option.map_eq_some_iff.mp hget
            simp only [sysStep, restartDaemon, Std.ExtTreeMap.getElem?_filterMap',
              Option.bind_eq_some_iff] at hglobal
            obtain ⟨manifest, -, hrestored⟩ := hglobal
            rw [restoreGlobal, Option.ite_none_right_eq_some] at hrestored
            obtain ⟨prepared, -, rfl⟩ := Option.map_eq_some_iff.mp hrestored.2
            cases hwatch
      · rw [List.mem_singleton.mp ht] at hp
        cases hp

theorem paced_start : Paced start := by
  refine ⟨fun _ => .global "", fun key record hd hget => ?_, fun t ht => (by cases ht)⟩
  cases key <;> simp [recordOf, start] at hget

/-- What the records say of their watchers is what the watchers' flags say. -/
def FlagsAgree (w : World) : Prop :=
  ∀ key record hd, recordOf w key = some record → record.handles.watch = some hd →
    (hd ∈ w.paused ↔ record.runtime.watchPaused = true)

/-- **A WATCHER'S FLAG IS ITS RECORD'S PAUSE**, for the services and the globals of every
    state the daemon reaches, also while its watchers, requests and restarts interleave. -/
theorem flags_agree (as : List Action) : FlagsAgree (run sysStep start as).1 := by
  obtain ⟨owner, hagree, -⟩ := run_invariant sysStep paced_sysStep as start paced_start
  exact fun key record hd hget hwatch => (hagree key record hd hget hwatch).2.2

-- ── until it is resumed ───────────────────────────────────────────────────────

/-- The watch of a service is paused, if there is the service. -/
def Mute (w : World) (runId service : String) : Prop :=
  ∀ record, recordOf w (.service runId service) = some record →
    record.runtime.watchPaused = true

/-- Accesses that may end a pause. -/
def Clears (runId name : String) : Effect → Prop
  | .lock id (.setWatchPaused service false) =>
      id = runId ∧ (service = none ∨ service = some name)
  | .lock id (.store service _) => id = runId ∧ service = name
  | .createRun run => run.services ≠ ∅
  | _ => False

/-- Tasks that may end a pause: one that resumes the watch, or launches the service again. -/
def ends (runId name : String) : Task → Bool
  | .resumeWatch id service =>
      decide (id = runId) && (decide (service = none) || decide (service = some name))
  | .storeFailedInit job _ _ service _ | .storeResult job _ _ _ service _ =>
      decide (job.runId = runId) && decide (service = name)
  | _ => false

section Mute

variable {env : Env} {w : World} {runId name : String}

/-- A pause lasts until an access clears it. -/
theorem mute_apply {e : Effect} (h : Mute w runId name) (hclears : ¬ Clears runId name e) :
    Mute (e.apply w) runId name := by
  intro record' hget
  cases leaves_apply hget with
  | still record hrecord hstill => rw [hstill.paused, h record hrecord]
  | keeps record hrecord hpaused hwild => rw [hpaused, h record hrecord]
  | sets run service target value record hkey heffect hrecord hset hkept =>
      cases hkey
      by_cases hpausable : Pausable target name record
      · rw [hset hpausable]
        cases value with
        | true => rfl
        | false => exact absurd (by rw [heffect]; exact ⟨rfl, hpausable.1⟩) hclears
      · rw [hkept hpausable, h record hrecord]
  | stores run service hkey heffect =>
      cases hkey
      exact absurd (by rw [heffect]; exact ⟨rfl, rfl⟩) hclears
  | opens run service heffect hrecord =>
      refine absurd ?_ hclears
      rw [heffect]
      intro hempty
      rw [hempty] at hrecord
      simp at hrecord
  | upserts global hkey => cases hkey

/-- Only the tasks that end a pause make such an access. -/
theorem not_clears {t : Task} {e : Effect} (h : ends runId name t = false)
    (hmakes : Makes env w t e) : ¬ Clears runId name e := by
  intro hclears
  cases hmakes with
  | aside t haside =>
      cases e with
      | storePaused | unit | beginLaunch | writeGlobalManifest | serve => exact hclears
      | _ => cases haside
  | resumeWatch id service =>
      obtain ⟨rfl, hnamed⟩ := hclears
      rcases hnamed with rfl | rfl <;> simp [ends] at h
  | storeFailedInit job prepared error service rest
  | storeResult job prepared launch start service rest =>
      obtain ⟨rfl, rfl⟩ := hclears
      simp [ends] at h
  | createRun job baseEnv hfree => exact hclears rfl
  | waitRestart r hmem | waitReadiness run service launch hmem
  | handleReadiness job launch service rest hmem =>
      rcases DevstackEffects.mem_deliver hmem with ⟨handle, rfl⟩ | ⟨reason, rfl⟩ | rfl
        <;> exact hclears
  | _ => exact hclears

/-- So any other task leaves it. -/
theorem mute_step {t : Task} (h : Mute w runId name) (hends : ends runId name t = false) :
    Mute (t.step env w).1 runId name := by
  rw [step_world]
  exact List.foldlRecOn (motive := fun w' => Mute w' runId name) (effects env w t) Effect.apply h
    (fun w' hmute e he => mute_apply hmute (not_clears hends (makes_of_mem he)))

/-- Whether `pause_watch` accepts a request, and for which services. -/
def Pauses (w : World) (runId : String) (target : Option String) (name : String) : Prop :=
  ∃ record ∈ recordOf w (.service runId name), Pausable target name record

/-- The request that pauses a service leaves it paused. -/
theorem mute_pause {target : Option String} (h : Pauses w runId target name) :
    Mute (Task.step env w (.pauseWatch runId target)).1 runId name := by
  obtain ⟨record, hmem, hnamed, hauto⟩ := h
  obtain ⟨r, hrun, hrecord⟩ := Option.bind_eq_some_iff.mp hmem
  have haccepted : ∃ targets, watchTargets r target = .ok targets := by
    cases target with
    | none => exact ⟨_, rfl⟩
    | some service =>
        have hname : service = name := by simpa using hnamed
        subst hname
        exact ⟨[service], by simp [watchTargets, hrecord, hauto]⟩
  obtain ⟨targets, htargets⟩ := haccepted
  have hstep : (Task.step env w (.pauseWatch runId target)).1
      = setPausedStep w runId r target true := by
    simp only [Task.step, hrun, htargets]
  obtain ⟨hruns, -⟩ := storePaused_foldl (w := w.lock runId (.setWatchPaused target true))
    (pausableHandles r target) true
  intro record' hget
  rw [hstep, setPausedStep, recordOf, hruns] at hget
  have hlocked : recordOf (w.lock runId (.setWatchPaused target true)) (.service runId name)
      = some record' := hget
  rw [recordOf, World.lock, hrun] at hlocked
  simp only [Std.ExtTreeMap.getElem?_insert_self, Option.bind_some] at hlocked
  obtain ⟨before, hbefore, -, hset, -⟩ := setWatchPaused_services hlocked
  rw [hrecord, Option.some.injEq] at hbefore
  exact hset (hbefore ▸ ⟨hnamed, hauto⟩)

end Mute

/-- A step that does not resume the watch of a service and does not launch it again; the
    pause is not written to the manifest, so a restart of the daemon may end it too. -/
def Undisturbed (runId name : String) (s : Sys) : Action → Prop
  | .request _ => True
  | .run position _ => ((s.2[position]?).map (ends runId name)).getD false = false
  | .daemonRestart _ => False

instance decidableUndisturbed (runId name : String) (s : Sys) (a : Action) :
    Decidable (Undisturbed runId name s a) := by
  cases a with
  | request request => exact .isTrue trivial
  | run position env => exact inferInstanceAs (Decidable (_ = false))
  | daemonRestart answers => exact .isFalse id

/-- A restart of the service that a watcher has decided on and that is not begun. -/
def watcherRestart (runId name : String) : Task → Bool
  | .restart run service _ (.watcher _) => decide (run = runId) && decide (service = name)
  | _ => false

/-- A watcher of the service that compares a hash goes back to its loop, or ends, and the hash
    it compared is not taken over; a watcher's restart of the service that is waiting after the
    step was waiting before it. -/
structure Holds (runId name : String) (s : Sys) (a : Action) : Prop where
  compares : ∀ position env hd hash, a = .run position env →
    s.2[position]? = some (.watcherCompare ⟨runId, name, hd⟩ hash) →
    (∀ t' ∈ (Task.step env s.1 (.watcherCompare ⟨runId, name, hd⟩ hash)).2,
      t' = .watcherTop ⟨runId, name, hd⟩)
    ∧ recordOf (sysStep s a).1 (.service runId name) = recordOf s.1 (.service runId name)
  restarts : ∀ t ∈ (sysStep s a).2, watcherRestart runId name t = true → t ∈ s.2

/-- No call returns to a restart that a watcher asked for. -/
theorem watcherRestart_resume {k : Cont} {result : Except String Unit} {t' : Task}
    {runId name : String} (h : t' ∈ k.resume result) : watcherRestart runId name t' = false := by
  cases resumes_of_mem h <;> rfl

/-- **WHERE WATCHERS' RESTARTS COME FROM**: from a watcher that compares a hash. -/
theorem watcherRestart_succ {env : Env} {w : World} {t t' : Task} {runId name : String}
    (h : Succ env w t t') (hrestart : watcherRestart runId name t' = true) :
    ∃ hd hash, t = .watcherCompare ⟨runId, name, hd⟩ hash := by
  cases h with
  | persistGone hmem | writeResume hmem | persistGlobalGone hmem | writeGlobalResume hmem
  | syncWatcherResume hmem | syncGlobalWatcherResume hmem | syncCaptureResume hmem
  | keepCaptureResume hmem | statusGone hmem | writeStatusResume hmem | keepWatcherResume hmem
  | keepGlobalWatcherResume hmem | listRuns hmem | resumeWatch hmem =>
      rw [watcherRestart_resume hmem] at hrestart
      cases hrestart
  | restartGone hmem | loadPostInitFailed hmem | restartUnitFailed hmem | waitRestartGone hmem =>
      rw [@watcherRestart_resume (.restarted _) (.ok ()) _ _ _ hmem] at hrestart
      cases hrestart
  | ensureGlobalsDone hmem | checkGlobalFailed hmem =>
      cases globalsResumes_of_mem hmem <;> cases hrestart
  | watcherCompareRestart t hash =>
      obtain ⟨rfl, rfl⟩ : t.run = runId ∧ t.service = name := by
        simpa [watcherRestart] using hrestart
      exact ⟨t.handle, hash, rfl⟩
  | _ => cases hrestart

/-- A pause lasts over an undisturbed step of the daemon. -/
theorem mute_sysStep {runId name : String} (s : Sys) (a : Action) (h : Mute s.1 runId name)
    (hundisturbed : Undisturbed runId name s a) : Mute (sysStep s a).1 runId name := by
  cases a with
  | request request =>
      simp only [sysStep]
      split <;> exact h
  | run position env =>
      show Mute (stepAt Task.step s (position, env)).1 runId name
      cases hget : s.2[position]? with
      | none =>
          rw [stepAt_none Task.step hget]
          exact h
      | some t =>
          rw [stepAt_some Task.step hget]
          rw [Undisturbed, hget] at hundisturbed
          exact mute_step h hundisturbed
  | daemonRestart answers => exact hundisturbed.elim

/-- A watcher that compares a hash of a paused service. -/
theorem compares_of_mute {runId name : String} (s : Sys) {position : Nat} {env : Env}
    {hd : HandleId} {hash : String} (h : Mute s.1 runId name)
    (hget : s.2[position]? = some (.watcherCompare ⟨runId, name, hd⟩ hash)) :
    (∀ t' ∈ (Task.step env s.1 (.watcherCompare ⟨runId, name, hd⟩ hash)).2,
      t' = .watcherTop ⟨runId, name, hd⟩)
    ∧ recordOf (sysStep s (.run position env)).1 (.service runId name)
      = recordOf s.1 (.service runId name) := by
  have hstep : (sysStep s (.run position env)).1
      = (Task.step env s.1 (.watcherCompare ⟨runId, name, hd⟩ hash)).1 := by
    show (stepAt Task.step s (position, env)).1 = _
    rw [stepAt_some Task.step hget]
  rw [hstep]
  cases hrecord : recordOf s.1 (.service runId name) with
  | none =>
      have hnone : (s.1.runs[runId]?).bind (fun r => r.services[name]?) = none := hrecord
      simp only [Task.step, hnone]
      exact ⟨fun t' ht' => (by cases ht'), hrecord⟩
  | some record =>
      have hsome : (s.1.runs[runId]?).bind (fun r => r.services[name]?) = some record := hrecord
      have hequal : hashDiffers hash record = false := by
        rw [hashDiffers, h record hrecord]
        simp
      simp only [Task.step, hsome, hequal]
      refine ⟨fun t' ht' => List.mem_singleton.mp ht', ?_⟩
      obtain ⟨r, hrun, hservice⟩ := Option.bind_eq_some_iff.mp hsome
      show recordOf (s.1.lock runId (.compareHash name hash)) (.service runId name) = some record
      rw [recordOf, World.lock, hrun]
      simp only [Std.ExtTreeMap.getElem?_insert_self, Option.bind_some]
      rw [RunOp.apply, updateService_services, if_pos rfl, hservice, Option.map_some]
      show some (compareHashRecord hash record) = some record
      rw [compareHashRecord, hequal]
      rfl

/-- A watcher that compares during a pause restarts nothing. -/
theorem holds_of_mute {runId name : String} (s : Sys) (a : Action) (h : Mute s.1 runId name) :
    Holds runId name s a := by
  refine ⟨fun position env hd hash heq hget => heq ▸ compares_of_mute s h hget,
    fun t ht hrestart => ?_⟩
  cases a with
  | request request =>
      simp only [sysStep] at ht
      split at ht
      · rcases List.mem_append.mp ht with hold | hnew
        · exact hold
        · rw [List.mem_singleton.mp hnew] at hrestart
          cases request <;> cases hrestart
      · exact ht
  | run position env =>
      have ht : t ∈ (stepAt Task.step s (position, env)).2 := ht
      cases hget : s.2[position]? with
      | none =>
          rw [stepAt_none Task.step hget] at ht
          exact ht
      | some before =>
          rcases mem_stepAt Task.step hget ht with hmem | hmem
          · obtain ⟨hd, hash, rfl⟩ := watcherRestart_succ (succ_of_mem hmem) hrestart
            rw [(compares_of_mute s h hget).1 t hmem] at hrestart
            cases hrestart
          · exact hmem
  | daemonRestart answers =>
      rw [List.mem_singleton.mp ht] at hrestart
      cases hrestart

/-- **A PAUSED SERVICE IS LEFT ALONE**: after `pause_watch`, whatever tasks step and
    requests come until the watch is resumed or the service launched again, no watcher
    decides to restart the service, also none that had seen the change before the pause;
    the change is not forgotten either.  Only restarts decided on before go ahead. -/
theorem paused_until_resumed {s : Sys} {position : Nat} {env : Env} {runId name : String}
    (target : Option String) {as : List Action}
    (hpause : s.2[position]? = some (.pauseWatch runId target))
    (hpauses : Pauses s.1 runId target name)
    (hundisturbed : Along sysStep (Undisturbed runId name) (sysStep s (.run position env)) as) :
    Along sysStep (Holds runId name) (sysStep s (.run position env)) as
      ∧ Mute (run sysStep (sysStep s (.run position env)) as).1 runId name := by
  have hmute : Mute (sysStep s (.run position env)).1 runId name := by
    show Mute (stepAt Task.step s (position, env)).1 runId name
    rw [stepAt_some Task.step hpause]
    exact mute_pause hpauses
  exact ⟨along_of_guarded sysStep mute_sysStep (fun s a h _ => holds_of_mute s a h) as _ hmute
      hundisturbed,
    guarded_invariant sysStep mute_sysStep as _ hmute hundisturbed⟩

/-- A machine on which all succeeds, with a service to restart on every change. -/
def watched : Env :=
  { smooth with
    prepared := .ok { PreparedService.plain "web" "serve" [] with autoRestart := true }
    event := .due (.ok "h2") }

/-- `up --no-wait`; the watcher has seen a change and computed a hash when the request to
    pause it comes. -/
def compared : List Action :=
  .request (.up ⟨"dev", "/app", none, true, false, false⟩) :: List.replicate 14 (.run 0 watched)
    ++ [.run 1 watched, .run 1 watched, .request (.pauseWatch "dev-1" (some "web"))]

theorem paused_until_resumed_compared :
    let paused := sysStep (run sysStep start compared) (.run 2 watched)
    Along sysStep (Holds "dev-1" "web") paused (List.replicate 3 (.run 1 watched))
      ∧ Mute (run sysStep paused (List.replicate 3 (.run 1 watched))).1 "dev-1" "web" :=
  paused_until_resumed (some "web") rfl ⟨_, rfl, Or.inr rfl, rfl⟩ (by decide +kernel)

end DevstackPausing
