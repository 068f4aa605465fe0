import Devstack.Daemon.Handles

/-! # Monitors — the health monitor of a ready service

    `mark_service_ready` starts a monitor when the record has no health handle; the
    handle is the only trace of the monitor in the record.  It outlives a monitor that
    ended at its restart limit, a manifest does not save it, and a monitor that was
    spawned reads it only at its own first step.

    `Attended` says when none of this goes wrong: a service becomes ready where the
    monitor of its handle still runs, or where it has no handle and no monitor.  Along
    such runs a ready service has one monitor (`one_monitor_each`); after a restart of
    the daemon it has none (`unmonitored_after_restart`). -/

namespace DevstackMonitors

open DevstackModel DevstackStores DevstackReadiness DevstackHealth DevstackConfig DevstackLaunch
open DevstackStatus DevstackLocked DevstackWorld DevstackTasks DevstackSystem DevstackEffects
open DevstackSuccessors DevstackHandles DevstackInterleaving DevstackMachine

-- ── which monitor a task is ───────────────────────────────────────────────────

def callerMonitor : Caller → Option MonitorTask
  | .monitor m => some m
  | _ => none

def contMonitor : Cont → Option MonitorTask
  | .restarted caller => callerMonitor caller
  | .monitorTurn m _ => some m
  | _ => none

/-- The monitor that a task is; one that restarts its service waits in that call. -/
def monitorOf : Task → Option MonitorTask
  | .monitorTop m | .monitorSlept m | .monitorProbe m | .monitorLimit m => some m
  | .restart _ _ _ caller => callerMonitor caller
  | .loadPostInit r | .restartUnit r | .restarted r | .waitRestart r => callerMonitor r.caller
  | .persist _ k | .write _ k | .persistGlobal _ k | .writeGlobal _ k | .syncWatcher _ _ k
  | .keepWatcher _ k | .syncGlobalWatcher _ k | .keepGlobalWatcher _ k | .syncCapture _ _ k
  | .keepCapture _ _ k | .status _ k | .writeStatus _ _ k => contMonitor k
  | _ => none

/-- The service that a task monitors, or was spawned to monitor, with its flag clear. -/
def monitors (raised : List HandleId) : Task → Option (String × String)
  | .monitorInit run service => some (run, service)
  | t =>
      match monitorOf t with
      | some m => if m.handle ∈ raised then none else some (m.run, m.service)
      | none => none

/-- The number of monitors of a service. -/
def monitorCount (s : Sys) (run service : String) : Nat :=
  s.2.countP (fun t => decide (monitors s.1.raised t = some (run, service)))

/-- The run that a `down` or a `kill` has taken the handles of and not yet stopped. -/
def windsDown : Task → Option String
  | .listServices run _ _ | .stopUnits run _ _ _ | .releasePorts run _ | .markStopped run _ =>
      some run
  | _ => none

/-- Ready, and of a kind that is monitored. -/
def Bright (record : ServiceRecord) : Prop :=
  record.runtime.state = .ready ∧ record.spec.readiness.kind ≠ .exit

/-- No service has two monitors, and a ready one has one, unless its run is being
    stopped. -/
structure Monitored (s : Sys) : Prop where
  atMost : ∀ run service, monitorCount s run service ≤ 1
  each : ∀ run service record, Stored s.1 run service record → Bright record →
    (∀ t ∈ s.2, windsDown t ≠ some run) → monitorCount s run service = 1

-- ── the condition ─────────────────────────────────────────────────────────────

/-- The task of the monitor with this handle, or one spawned to be it. -/
def Watches (run service : String) (handle : HandleId) (t : Task) : Prop :=
  t = .monitorInit run service
    ∨ ∃ m, monitorOf t = some m ∧ m.run = run ∧ m.service = service ∧ m.handle = handle

/-- The record's handle is the one of a monitor that runs, or its run is being stopped. -/
def Covered (ts : List Task) (run service : String) (record : ServiceRecord) : Prop :=
  (∃ handle, record.handles.health = some handle ∧ ∃ t ∈ ts, Watches run service handle t)
    ∨ ∃ t ∈ ts, windsDown t = some run

/-- Where `mark_service_ready` leaves one monitor: the handle it finds is the one of a
    monitor that runs, or it finds neither a handle nor a monitor. -/
def CanReady (s : Sys) (run service : String) : Prop :=
  ∀ record, Stored s.1 run service record → record.spec.readiness.kind ≠ .exit →
    if record.handles.health.isSome then Covered s.2 run service record
    else ∀ t ∈ s.2, monitors s.1.raised t ≠ some (run, service)

/-- The condition on a task's step: what turns a service ready finds its monitor, and
    `down` does not stop half-way. -/
def AttendedTask (env : Env) (s : Sys) (others : List Task) : Task → Prop
  | .waitRestart r => env.readiness = .ok () → CanReady s r.run r.service
  | .waitReadiness run service _ => env.readiness = .ok () → CanReady s run service
  | .handleReadiness job _ name _ =>
      job.noWait = false → env.readiness = .ok () → CanReady s job.runId name
  | .monitorProbe m => ∀ record, Stored s.1 m.run m.service record →
      m.monitor.probe env.engine env.obs = true → record.spec.readiness.kind ≠ .exit →
      standing record = (.degraded, some healthChecksFailing) →
      Covered s.2 m.run m.service record
  | .writeStatus run copy _ => ∀ service record (old : ServiceRecord),
      Stored s.1 run service record → copy.services[service]? = some old →
      (unitRule copy.state (env.unitStatus old.launch.unitName) (standing old)).1 = .ready →
      record.runtime.state ≠ .ready → record.spec.readiness.kind ≠ .exit →
      Covered s.2 run service record
  | .applyUnchanged job prepared name _ => ∀ record, Stored s.1 job.runId name record →
      record.runtime.state = .ready → record.spec.readiness.kind = .exit →
      prepared.readiness.kind ≠ .exit → Covered s.2 job.runId name record
  | .releasePorts run _ => ∀ service record, Stored s.1 run service record → Bright record →
      env.ports = .ok () ∨ Covered others run service record
  | _ => True

/-- The condition on a step of the daemon; a new process restores no ready service. -/
def Attended (s : Sys) : Action → Prop
  | .request _ => True
  | .run position env =>
      ∀ t, s.2[position]? = some t → AttendedTask env s (s.2.eraseIdx position) t
  | .daemonRestart answers =>
      ∀ (run service : String) manifest prepared (saved : PersistedService) p,
        s.1.manifests[run]? = some manifest →
        runManifestIsRestorable answers.pathExists manifest = true →
        answers.runPrepared manifest.runId = some prepared →
        manifest.services[service]? = some saved → prepared service = some p →
        saved.state = .ready → p.readiness.kind = .exit

-- ── no service has two ────────────────────────────────────────────────────────

section Single

variable {env : Env} {w : World} {raised raised' : List HandleId}

/-- A monitor whose flag is clear later had it clear before. -/
theorem monitors_before {t : Task} {key : String × String} (hsub : ∀ h ∈ raised, h ∈ raised')
    (h : monitors raised' t = some key) : monitors raised t = some key := by
  have hlive : ∀ {m : MonitorTask}, (if m.handle ∈ raised' then none
        else some (m.run, m.service)) = some key →
      (if m.handle ∈ raised then none else some (m.run, m.service)) = some key := by
    intro m h
    split at h
    · exact nomatch h
    · next hclear => rw [if_neg (fun hmem => hclear (hsub _ hmem))]; exact h
  cases t with
  | monitorInit run service => exact h
  | _ =>
      simp only [monitors] at h ⊢
      split at h
      · next m hm => exact hlive h
      · exact nomatch h

theorem monitors_resume {k : Cont} {result : Except String Unit} {t' : Task}
    (h : t' ∈ k.resume result) : monitorOf t' = none ∨ monitorOf t' = contMonitor k := by
  cases resumes_of_mem h <;> first | exact Or.inl rfl | exact Or.inr rfl

theorem notInit_resume {k : Cont} {result : Except String Unit} {t' : Task}
    (h : t' ∈ k.resume result) (run service : String) : t' ≠ .monitorInit run service := by
  cases resumes_of_mem h <;> exact fun heq => nomatch heq

/-- The service a task marks ready, or failed. -/
def delivers : Task → Option (String × String)
  | .waitRestart r => some (r.run, r.service)
  | .waitReadiness run service _ => some (run, service)
  | .handleReadiness job _ name _ => some (job.runId, name)
  | _ => none

theorem monitors_of_same {t t' : Task} {key : String × String} (hsame : monitorOf t' = monitorOf t)
    (hinit : ∀ run service, t' ≠ .monitorInit run service)
    (hinit' : ∀ run service, t ≠ .monitorInit run service) (h : monitors raised t' = some key) :
    monitors raised t = some key := by
  have hof : ∀ {t : Task}, (∀ run service, t ≠ .monitorInit run service) →
      monitors raised t = match monitorOf t with
        | some m => if m.handle ∈ raised then none else some (m.run, m.service)
        | none => none := by
    intro t hinit
    cases t with
    | monitorInit run service => exact absurd rfl (hinit run service)
    | _ => rfl
  rw [hof hinit, hsame] at h
  rw [hof hinit', h]

theorem monitors_none {t : Task} (hof : monitorOf t = none)
    (hinit : ∀ run service, t ≠ .monitorInit run service) : monitors raised t = none := by
  cases t with
  | monitorInit run service => exact absurd rfl (hinit run service)
  | _ => simp only [monitors, hof]

/-- **WHERE MONITORS COME FROM**: a monitor after a step was one before it, or was spawned
    by the task that marked its service ready. -/
theorem monitors_succ {t t' : Task} {key : String × String} (hsucc : Succ env w t t')
    (h : monitors raised t' = some key) :
    monitors raised t = some key ∨ (t' = .monitorInit key.1 key.2 ∧ delivers t = some key) := by
  have hresume : ∀ {k : Cont} {result : Except String Unit}, t' ∈ k.resume result →
      monitorOf t = contMonitor k → (∀ run service, t ≠ .monitorInit run service) →
      monitors raised t = some key := by
    intro k result hmem hk hinit
    rcases monitors_resume hmem with hnone | hsame
    · rw [monitors_none hnone (notInit_resume hmem)] at h
      exact nomatch h
    · exact monitors_of_same (hsame.trans hk.symm) (notInit_resume hmem) hinit h
  have hcaller : ∀ {caller : Caller}, t' ∈ caller.resume → monitorOf t = callerMonitor caller →
      (∀ run service, t ≠ .monitorInit run service) → monitors raised t = some key := by
    intro caller hmem hk hinit
    exact @hresume (.restarted caller) (.ok ()) hmem hk hinit
  have hspawned : ∀ {run service : String}, monitors raised (.monitorInit run service) = some key →
      (run, service) = key := fun h => Option.some.inj h
  cases hsucc with
  | persistGone hmem | writeResume hmem | persistGlobalGone hmem | writeGlobalResume hmem
  | syncWatcherResume hmem | keepWatcherResume hmem | syncGlobalWatcherResume hmem
  | keepGlobalWatcherResume hmem | syncCaptureResume hmem | keepCaptureResume hmem
  | statusGone hmem | writeStatusResume hmem =>
      exact Or.inl (hresume hmem rfl (fun _ _ heq => nomatch heq))
  | listRuns hmem =>
      cases resumes_of_mem hmem
      exact nomatch h
  | resumeWatch hmem =>
      cases resumes_of_mem hmem
      exact nomatch h
  | restartGone hmem | loadPostInitFailed hmem | restartUnitFailed hmem | waitRestartGone hmem =>
      exact Or.inl (hcaller hmem rfl (fun _ _ heq => nomatch heq))
  | ensureGlobalsDone hmem | checkGlobalFailed hmem =>
      cases globalsResumes_of_mem hmem <;> exact nomatch h
  | waitRestartSpawn r => cases hspawned h; exact Or.inr ⟨rfl, rfl⟩
  | waitReadinessSpawn run service launch => cases hspawned h; exact Or.inr ⟨rfl, rfl⟩
  | handleReadinessSpawn job launch name rest => cases hspawned h; exact Or.inr ⟨rfl, rfl⟩
  | monitorInit run service handle monitor =>
      refine Or.inl ?_
      simp only [monitors, monitorOf] at h
      split at h
      · exact nomatch h
      · exact h
  | _ => first | exact Or.inl h | exact nomatch h

theorem init_succ {t : Task} {run service : String} (hsucc : Succ env w t (.monitorInit run service)) :
    delivers t = some (run, service) := by
  cases hsucc with
  | persistGone hmem | writeResume hmem | persistGlobalGone hmem | writeGlobalResume hmem
  | syncWatcherResume hmem | keepWatcherResume hmem | syncGlobalWatcherResume hmem
  | keepGlobalWatcherResume hmem | syncCaptureResume hmem | keepCaptureResume hmem
  | statusGone hmem | writeStatusResume hmem | listRuns hmem | resumeWatch hmem =>
      exact absurd rfl (notInit_resume hmem run service)
  | restartGone hmem | loadPostInitFailed hmem | restartUnitFailed hmem | waitRestartGone hmem =>
      exact absurd rfl
        (@notInit_resume (.restarted _) (.ok ()) (.monitorInit run service) hmem run service)
  | ensureGlobalsDone hmem | checkGlobalFailed hmem => cases globalsResumes_of_mem hmem
  | waitRestartSpawn r => rfl
  | waitReadinessSpawn run service launch => rfl
  | handleReadinessSpawn job launch name rest => rfl

/-- What a delivered result spawns. -/
theorem deliver_spawns (w : World) (run service now : String) (result : Except String Unit) :
    (deliver w run service now result).2 = []
      ∨ ((deliver w run service now result).2 = [.monitorInit run service] ∧ result = .ok ()
        ∧ ∃ record, Stored w run service record ∧ needsMonitor record = true) := by
  cases result with
  | error reason => exact Or.inl rfl
  | ok u =>
      simp only [deliver, markReadyStep]
      split
      · next record hrecord =>
          obtain ⟨r, hr, hs⟩ := Option.bind_eq_some_iff.mp hrecord
          split
          · next hneeds => exact Or.inr ⟨rfl, trivial, record, ⟨r, hr, hs⟩, hneeds⟩
          · exact Or.inl rfl
      · exact Or.inl rfl

/-- The monitors among tasks of which one goes on and none was spawned as one. -/
theorem monitors_onward {ts : List Task} {key : Option (String × String)} (honward : Onward ts)
    (hinit : ∀ run service, .monitorInit run service ∉ ts)
    (hkey : ∀ t ∈ ts, ∀ k, monitors raised t = some k → key = some k) :
    (ts.filterMap (monitors raised)).Sublist key.toList := by
  cases ts with
  | nil => exact List.nil_sublist _
  | cons t rest =>
      have hrest : rest.filterMap (monitors raised) = [] := by
        refine List.filterMap_eq_nil_iff.mpr (fun t' ht' => ?_)
        have hspawned := honward t' ht'
        cases t' with
        | monitorInit run service => exact absurd (List.mem_cons_of_mem _ ht') (hinit run service)
        | watcherTop _ | globalWatcherTop _ | waitReadiness _ _ _ | waitGlobalRestart _ _ => rfl
        | _ => exact nomatch hspawned
      cases hmonitors : monitors raised t with
      | none =>
          rw [List.filterMap_cons_none hmonitors, hrest]
          exact List.nil_sublist _
      | some k =>
          rw [List.filterMap_cons_some hmonitors, hrest, hkey t (List.mem_cons_self ..) k hmonitors]
          exact List.Sublist.refl _

theorem filterMap_deliver (run service now : String) (result : Except String Unit) :
    ((deliver w run service now result).2.filterMap (monitors raised)).Sublist [(run, service)] := by
  rcases deliver_spawns w run service now result with hnil | ⟨hspawns, -⟩
  · rw [hnil]
    exact List.nil_sublist _
  · rw [hspawns]
    exact List.Sublist.refl _

/-- **A STEP MAKES ONE MONITOR AT MOST**, and only where it marks a service ready. -/
theorem monitors_step (env : Env) (w : World) (raised : List HandleId) (t : Task) :
    ((t.step env w).2.filterMap (monitors raised)).Sublist (monitors raised t).toList
      ∨ ∃ key, delivers t = some key ∧ .monitorInit key.1 key.2 ∈ (t.step env w).2
        ∧ ((t.step env w).2.filterMap (monitors raised)).Sublist
          ((monitors raised t).toList ++ [key]) := by
  by_cases hinit : ∃ run service, .monitorInit run service ∈ (t.step env w).2
  · obtain ⟨run, service, hmem⟩ := hinit
    have hdelivers := init_succ (succ_of_mem hmem)
    refine Or.inr ⟨(run, service), hdelivers, hmem, ?_⟩
    cases t with
    | waitRestart r =>
        cases hdelivers
        simp only [Task.step] at hmem ⊢
        split at hmem
        · exact absurd rfl (@notInit_resume (.restarted _) (.ok ()) _ hmem r.run r.service)
        · have hhead : [Task.persist r.run (.restarted r.caller)].filterMap (monitors raised)
              = (monitors raised (.waitRestart r)).toList := by
            show [Task.persist r.run (.restarted r.caller)].filterMap (monitors raised)
              = (monitors raised (.persist r.run (.restarted r.caller))).toList
            cases hkey : monitors raised (.persist r.run (.restarted r.caller)) <;> simp [hkey]
          rw [← List.singleton_append, List.filterMap_append, hhead]
          exact (List.Sublist.refl _).append (filterMap_deliver _ _ _ _)
    | waitReadiness run service launch =>
        cases hdelivers
        exact filterMap_deliver _ _ _ _
    | handleReadiness job launch name rest =>
        obtain ⟨rfl, rfl⟩ : job.runId = run ∧ name = service := by
          cases hdelivers
          exact ⟨rfl, rfl⟩
        simp only [Task.step]
        split
        · exact List.nil_sublist _
        · split
          · exact List.nil_sublist _
          · have hdelivered := @filterMap_deliver w raised job.runId name env.now
            cases env.readiness <;> exact hdelivered _
    | _ => cases hdelivers
  · refine Or.inl (monitors_onward (onward_step env w t)
      (fun run service hmem => hinit ⟨run, service, hmem⟩) (fun t' ht' k hk => ?_))
    rcases monitors_succ (succ_of_mem ht') hk with hbefore | ⟨rfl, -⟩
    · exact hbefore
    · exact absurd ⟨_, _, ht'⟩ hinit

/-- A monitor is only made of a service that has none. -/
theorem fresh_of_attended {s : Sys} {others : List Task} {t : Task} {run service : String}
    (hattended : AttendedTask env s others t)
    (hdelivers : delivers t = some (run, service))
    (hmem : .monitorInit run service ∈ (t.step env s.1).2) :
    ∀ t' ∈ s.2, monitors s.1.raised t' ≠ some (run, service) := by
  have hspawned : ∀ {now : String},
      .monitorInit run service ∈ (deliver s.1 run service now env.readiness).2 →
      (env.readiness = .ok () → CanReady s run service) →
      ∀ t' ∈ s.2, monitors s.1.raised t' ≠ some (run, service) := by
    intro now hmem hready
    rcases deliver_spawns s.1 run service now env.readiness with hnil | ⟨-, hok, record, hstored, hneeds⟩
    · rw [hnil] at hmem
      cases hmem
    · obtain ⟨hnone, hkind⟩ : record.handles.health.isNone = true
          ∧ record.spec.readiness.kind ≠ .exit := by
        rw [needsMonitor, Bool.and_eq_true, decide_eq_true_eq] at hneeds
        exact hneeds
      have hcan := hready hok record hstored hkind
      rwa [Option.isNone_iff_eq_none.mp hnone, if_neg (by simp)] at hcan
  cases t with
  | waitRestart r =>
      cases hdelivers
      simp only [Task.step] at hmem
      split at hmem
      · exact absurd rfl (@notInit_resume (.restarted _) (.ok ()) _ hmem r.run r.service)
      · rcases List.mem_cons.mp hmem with heq | hmem
        · cases heq
        · exact hspawned hmem hattended
  | waitReadiness run service launch =>
      cases hdelivers
      rcases List.mem_cons.mp hmem with heq | hmem
      · cases heq
      · exact hspawned hmem hattended
  | handleReadiness job launch name rest =>
      obtain ⟨rfl, rfl⟩ : job.runId = run ∧ name = service := by
        cases hdelivers
        exact ⟨rfl, rfl⟩
      simp only [Task.step] at hmem
      split at hmem
      · rcases List.mem_cons.mp hmem with heq | hmem
        · cases heq
        · cases List.mem_singleton.mp hmem
      · next hwait =>
          split at hmem
          · cases hmem
          · have hin : .monitorInit job.runId name
                ∈ (deliver s.1 job.runId name env.now env.readiness).2 := by
              split at hmem
              · exact (List.mem_cons.mp hmem).resolve_left (fun heq => by cases heq)
              · exact (List.mem_cons.mp hmem).resolve_left (fun heq => by cases heq)
            exact hspawned hin (hattended (Bool.eq_false_iff.mpr hwait))
  | _ => cases hdelivers

end Single

-- ── records that stay ready ───────────────────────────────────────────────────

/-- A change after which a record is ready only if it was, with the same health handle. -/
def Dims (record record' : ServiceRecord) : Prop :=
  Bright record' → Bright record ∧ record'.handles.health = record.handles.health

theorem Dims.of_same {record record' : ServiceRecord}
    (hstate : record'.runtime.state = record.runtime.state)
    (hspec : record'.spec.readiness = record.spec.readiness)
    (hhealth : record'.handles.health = record.handles.health) : Dims record record' := by
  rintro ⟨hready, hkind⟩
  exact ⟨⟨hstate ▸ hready, hspec ▸ hkind⟩, hhealth⟩

theorem Dims.of_state {record record' : ServiceRecord} (h : record'.runtime.state ≠ .ready) :
    Dims record record' :=
  fun hbright => absurd hbright.1 h

/-- Operations that make no service ready and drop the health handle of none that stays
    ready. -/
def dimOp : RunOp → Prop
  | .markReady .. | .applyPrepared .. | .reconcile _ | .stopHandles => False
  | .transition _ _ change => change ≠ .recoverToReady
  | .store _ record => record.runtime.state ≠ .ready
  | _ => True

section Dim

variable {r : RunRecord} {name : String} {record' : ServiceRecord}

theorem dims_updateAndRecompute {service : String}
    {f : ServiceRecord → ServiceRecord × Option DaemonEvent}
    (hf : ∀ record, Dims record (f record).1)
    (hget : (updateAndRecompute r service f).1.services[name]? = some record') :
    ∃ record, r.services[name]? = some record ∧ Dims record record' := by
  rw [updateAndRecompute_services] at hget
  split at hget
  · obtain ⟨record, hrecord, rfl⟩ := Option.map_eq_some_iff.mp hget
    exact ⟨record, hrecord, hf record⟩
  · exact ⟨record', hget, Dims.of_same rfl rfl rfl⟩

theorem dims_updateService {service : String}
    {f : ServiceRecord → ServiceRecord × List HandleId} (hf : ∀ record, Dims record (f record).1)
    (hget : (updateService r service f).1.services[name]? = some record') :
    ∃ record, r.services[name]? = some record ∧ Dims record record' := by
  rw [updateService_services] at hget
  split at hget
  · obtain ⟨record, hrecord, rfl⟩ := Option.map_eq_some_iff.mp hget
    exact ⟨record, hrecord, hf record⟩
  · exact ⟨record', hget, Dims.of_same rfl rfl rfl⟩

theorem dims_map {f : String → ServiceRecord → ServiceRecord}
    (hf : ∀ name record, Dims record (f name record))
    (hget : (r.services.map f)[name]? = some record') :
    ∃ record, r.services[name]? = some record ∧ Dims record record' := by
  rw [Std.ExtTreeMap.getElem?_map] at hget
  obtain ⟨record, hrecord, rfl⟩ := Option.map_eq_some_iff.mp hget
  exact ⟨record, hrecord, hf name record⟩

/-- **WHAT STAYS READY WAS READY.** -/
theorem dims_apply {op : RunOp} (hdim : dimOp op)
    (hget : (op.apply r).1.services[name]? = some record') (hbright : Bright record') :
    ∃ record, r.services[name]? = some record ∧ Bright record
      ∧ record'.handles.health = record.handles.health := by
  have hdims : (∃ record, r.services[name]? = some record ∧ Dims record record') →
      ∃ record, r.services[name]? = some record ∧ Bright record
        ∧ record'.handles.health = record.handles.health :=
    fun ⟨record, hrecord, hdims⟩ => ⟨record, hrecord, hdims hbright⟩
  cases op with
  | markReady service now fresh => exact hdim.elim
  | applyPrepared service prepared => exact hdim.elim
  | reconcile status => exact hdim.elim
  | stopHandles => exact hdim.elim
  | beginRestart service now =>
      refine hdims (dims_updateAndRecompute (fun record => Dims.of_state ?_) hget)
      rw [(Prod.mk.inj (beginRestartRecord_standing r.runId service now record)).1]
      decide
  | markFailed service now reason =>
      refine hdims (dims_updateAndRecompute (fun record => Dims.of_state ?_) hget)
      rw [(Prod.mk.inj (failedRecord_standing r.runId service now reason record)).1]
      decide
  | transition service now change =>
      cases change with
      | healthy => exact ⟨record', hget, hbright, rfl⟩
      | recoverToReady => exact absurd rfl hdim
      | markDegraded =>
          refine hdims (dims_updateAndRecompute (fun record => ?_) hget)
          rw [degradedRecord]
          split
          · exact Dims.of_state (by simp)
          · exact Dims.of_same rfl rfl rfl
  | restarted service now => exact hdims (dims_updateService (fun _ => .of_same rfl rfl rfl) hget)
  | compareHash service hash =>
      refine hdims (dims_updateService (fun record => ?_) hget)
      show Dims record (compareHashRecord hash record)
      rw [compareHashRecord]
      split <;> exact .of_same rfl rfl rfl
  | syncWatcher service =>
      refine hdims (dims_updateService (fun record => ?_) hget)
      rw [watchSyncBegin]
      split <;> exact .of_same rfl rfl rfl
  | keepWatcher service fresh =>
      refine hdims (dims_updateService (fun record => ?_) hget)
      show Dims record (watchSyncKeep fresh record)
      rw [watchSyncKeep]
      split <;> exact .of_same rfl rfl rfl
  | syncCapture service =>
      refine hdims (dims_updateService (fun record => ?_) hget)
      rw [captureSyncBegin]
      split <;> exact .of_same rfl rfl rfl
  | keepCapture service fresh =>
      refine hdims (dims_updateService (fun record => ?_) hget)
      show Dims record (captureSyncKeep fresh record)
      rw [captureSyncKeep]
      split <;> exact .of_same rfl rfl rfl
  | setWatchPaused service value =>
      have hpaused : ∀ record, Dims record (pausedRecord value record) := by
        intro record
        rw [pausedRecord]
        split <;> exact .of_same rfl rfl rfl
      cases service with
      | some service => exact hdims (dims_updateService hpaused hget)
      | none => exact hdims (dims_map (fun _ => hpaused) hget)
  | store service record =>
      rw [RunOp.apply, replaceServiceRecord_services] at hget
      split at hget
      · cases hget
        exact absurd hbright.1 hdim
      · exact ⟨record', hget, hbright, rfl⟩
  | removeMissing removed =>
      refine ⟨record', ?_, hbright, rfl⟩
      simp only [RunOp.apply, removeServicesMissingFromStack] at hget
      split at hget
      · exact hget
      · rw [recomputeRunState_services, Std.ExtTreeMap.getElem?_filter'] at hget
        exact (Option.filter_eq_some_iff.mp hget).1
  | updateResources baseEnv =>
      rw [RunOp.apply, updateRunLaunchResources_services] at hget
      exact ⟨record', hget, hbright, rfl⟩
  | recompute =>
      rw [RunOp.apply, recomputeRunState_services] at hget
      exact ⟨record', hget, hbright, rfl⟩
  | stopAll now =>
      refine hdims (dims_map (fun name record => Dims.of_state ?_) hget)
      simp

end Dim

section Effects

variable {env : Env} {w : World} {run service : String} {record' : ServiceRecord}

theorem dims_lock {id : String} {op : RunOp} (hdim : dimOp op)
    (hstored : Stored (w.lock id op) run service record') (hbright : Bright record') :
    ∃ record, Stored w run service record ∧ Bright record
      ∧ record'.handles.health = record.handles.health := by
  rw [World.lock] at hstored
  split at hstored
  · next r hget =>
      rcases (stored_insert hget).mp hstored with ⟨rfl, hrecord'⟩ | ⟨-, hstored⟩
      · obtain ⟨record, hrecord, hbefore⟩ := dims_apply hdim hrecord' hbright
        exact ⟨record, ⟨r, hget, hrecord⟩, hbefore⟩
      · exact ⟨record', hstored, hbright, rfl⟩
  · exact ⟨record', hstored, hbright, rfl⟩

/-- Accesses that make no service ready and drop the health handle of none that stays
    ready. -/
def dim : Effect → Prop
  | .lock _ op => dimOp op
  | .createRun run => run.services = ∅
  | _ => True

theorem dims_effect {e : Effect} (hdim : dim e) (hstored : Stored (e.apply w) run service record')
    (hbright : Bright record') :
    ∃ record, Stored w run service record ∧ Bright record
      ∧ record'.handles.health = record.handles.health := by
  cases e with
  | lock id op => exact dims_lock hdim hstored hbright
  | lockGlobal key op =>
      simp only [Effect.apply, World.lockGlobal] at hstored
      split at hstored <;> exact ⟨record', hstored, hbright, rfl⟩
  | createRun r =>
      obtain ⟨r', hget, hrecord⟩ := hstored
      simp only [Effect.apply, World.createRun, Std.ExtTreeMap.getElem?_insert] at hget
      split at hget
      · cases hget
        rw [hdim] at hrecord
        simp at hrecord
      · exact ⟨record', ⟨r', hget, hrecord⟩, hbright, rfl⟩
  | purge id =>
      obtain ⟨r, hget, hrecord⟩ := hstored
      simp only [Effect.apply, Std.ExtTreeMap.getElem?_erase] at hget
      split at hget
      · cases hget
      · exact ⟨record', ⟨r, hget, hrecord⟩, hbright, rfl⟩
  | collect expired =>
      obtain ⟨r, hget, hrecord⟩ := hstored
      simp only [Effect.apply, Std.ExtTreeMap.getElem?_filter'] at hget
      exact ⟨record', ⟨r, (Option.filter_eq_some_iff.mp hget).1, hrecord⟩, hbright, rfl⟩
  | _ => exact ⟨record', hstored, hbright, rfl⟩

theorem dims_effects {es : List Effect} (hdim : ∀ e ∈ es, dim e)
    (hstored : Stored (es.foldl Effect.apply w) run service record') (hbright : Bright record') :
    ∃ record, Stored w run service record ∧ Bright record
      ∧ record'.handles.health = record.handles.health := by
  induction es generalizing w with
  | nil => exact ⟨record', hstored, hbright, rfl⟩
  | cons e es ih =>
      obtain ⟨record₁, hstored₁, hbright₁, hhealth₁⟩ :=
        ih (fun e' he' => hdim e' (List.mem_cons_of_mem _ he')) hstored
      obtain ⟨record, hstored, hbright, hhealth⟩ :=
        dims_effect (hdim e (List.mem_cons_self ..)) hstored₁ hbright₁
      exact ⟨record, hstored, hbright, hhealth₁.trans hhealth⟩

/-- Tasks whose step can make a service ready, or drops the handles of a run. -/
def lights : Task → Bool
  | .waitRestart _ | .waitReadiness .. | .handleReadiness .. | .monitorProbe _ | .writeStatus ..
  | .applyUnchanged .. | .stopHandles .. => true
  | _ => false

theorem dim_of_makes {t : Task} {e : Effect} (h : lights t = false) (hmakes : Makes env w t e) :
    dim e := by
  cases hmakes with
  | aside t h =>
      cases e with
      | storePaused | unit | beginLaunch | writeGlobalManifest | serve => trivial
      | _ => exact nomatch h
  | waitRestart r he | waitReadiness run service launch he | handleReadiness job launch name rest he
  | monitorProbe m change | writeStatus run copy k | applyUnchanged job prepared name rest
  | stopHandles run kill purge =>
      exact nomatch h
  | createRun job baseEnv hfree => rfl
  | storeFailedInit job prepared error name rest =>
      show ServiceState.failed ≠ .ready
      decide
  | storeResult job prepared launch start name rest =>
      show (launchResultRecord prepared start env.now).runtime.state ≠ .ready
      rw [launchResultRecord_state]
      cases start <;> exact fun h => nomatch h
  | _ => trivial

/-- The flags that were raised stay so. -/
theorem raised_effect (e : Effect) : ∀ h ∈ w.raised, h ∈ (e.apply w).raised := by
  intro h hmem
  cases e with
  | lock id op =>
      simp only [Effect.apply, World.lock]
      split
      · exact List.mem_append_left _ hmem
      · exact hmem
  | lockGlobal key op =>
      simp only [Effect.apply, World.lockGlobal]
      split
      · exact List.mem_append_left _ hmem
      · exact hmem
  | upsertGlobal global | raise handle => exact List.mem_append_left _ hmem
  | _ => exact hmem

theorem raised_step (t : Task) : ∀ h ∈ w.raised, h ∈ (t.step env w).1.raised := by
  rw [step_world]
  generalize effects env w t = es
  induction es generalizing w with
  | nil => exact fun h hmem => hmem
  | cons e es ih => exact fun h hmem => ih h (raised_effect e h hmem)

end Effects

-- ── monitors that go on ───────────────────────────────────────────────────────

section Watches

variable {env : Env} {w : World} {run service : String} {handle : HandleId}

theorem watches_resume {k : Cont} {m : MonitorTask} (hk : contMonitor k = some m)
    (result : Except String Unit) : ∃ t' ∈ k.resume result, monitorOf t' = some m := by
  cases k with
  | restarted caller =>
      cases caller with
      | monitor m' =>
          cases hk
          rw [Cont.resume, Caller.resume]
          split
          · exact ⟨_, List.mem_singleton.mpr rfl, rfl⟩
          · exact ⟨_, List.mem_singleton.mpr rfl, rfl⟩
      | _ => exact nomatch hk
  | monitorTurn m' restart =>
      cases hk
      cases restart
      · exact ⟨_, List.mem_singleton.mpr rfl, rfl⟩
      · exact ⟨_, List.mem_singleton.mpr rfl, rfl⟩
  | _ => exact nomatch hk

/-- **A MONITOR GOES ON** until its flag is raised or it reaches its restart limit. -/
theorem watches_step {t : Task} (hwatches : Watches run service handle t)
    (hclear : handle ∉ w.raised) {record : ServiceRecord} (hstored : Stored w run service record)
    (hhealth : record.handles.health = some handle) :
    (∃ t' ∈ (t.step env w).2, Watches run service handle t')
      ∨ ∃ m, t = .monitorLimit m ∧ m.run = run ∧ m.service = service := by
  rcases hwatches with rfl | ⟨m, hm, rfl, rfl, rfl⟩
  · -- a spawned monitor reads the handle of the record
    obtain ⟨r, hr, hs⟩ := hstored
    have hget : (w.runs[run]?).bind (fun r => r.services[service]?) = some record := by
      rw [hr]
      exact hs
    refine Or.inl ⟨.monitorTop ⟨run, service, handle,
      .start record.spec.readiness (monitorContext record)⟩, ?_, Or.inr ⟨_, rfl, rfl, rfl, rfl⟩⟩
    simp only [Task.step, hget, hhealth]
    exact List.mem_singleton.mpr rfl
  · have hgo : ∀ {ts : List Task}, (∃ t' ∈ ts, monitorOf t' = some m) →
        (∃ t' ∈ ts, Watches m.run m.service m.handle t')
          ∨ ∃ m', t = .monitorLimit m' ∧ m'.run = m.run ∧ m'.service = m.service := by
      rintro ts ⟨t', ht', hof⟩
      exact Or.inl ⟨t', ht', Or.inr ⟨m, hof, rfl, rfl, rfl⟩⟩
    have hone : ∀ {t' : Task}, monitorOf t' = some m → ∃ t'' ∈ [t'], monitorOf t'' = some m :=
      fun h => ⟨_, List.mem_singleton.mpr rfl, h⟩
    have hcaller : ∀ {caller : Caller}, callerMonitor caller = some m →
        ∃ t' ∈ caller.resume, monitorOf t' = some m :=
      fun {caller} h => @watches_resume (.restarted caller) m h (.ok ())
    cases t with
    | monitorLimit m' =>
        cases hm
        exact Or.inr ⟨m, rfl, rfl, rfl⟩
    | monitorTop m' =>
        cases hm
        refine hgo ?_
        rw [Task.step, if_neg hclear]
        exact hone rfl
    | monitorSlept m' =>
        cases hm
        refine hgo ?_
        rw [Task.step, if_neg hclear]
        exact hone rfl
    | monitorProbe m' =>
        cases hm
        have heither : ∀ {c : Prop} [Decidable c] {t₁ t₂ : Task}, Watches m.run m.service m.handle t₁ →
            Watches m.run m.service m.handle t₂ →
            ∃ t' ∈ (if c then [t₁] else [t₂]), Watches m.run m.service m.handle t' := by
          intro c _ t₁ t₂ h₁ h₂
          split
          · exact ⟨t₁, List.mem_singleton.mpr rfl, h₁⟩
          · exact ⟨t₂, List.mem_singleton.mpr rfl, h₂⟩
        exact Or.inl (heither (Or.inr ⟨_, rfl, rfl, rfl, rfl⟩) (Or.inr ⟨_, rfl, rfl, rfl, rfl⟩))
    | restart run service noWait caller =>
        refine hgo ?_
        simp only [Task.step]
        split
        · exact hcaller hm
        · split
          · exact hcaller hm
          · exact hone hm
    | loadPostInit r | restartUnit r =>
        refine hgo ?_
        simp only [Task.step]
        split
        · exact hcaller hm
        · exact hone hm
    | restarted r =>
        refine hgo ?_
        simp only [Task.step]
        split
        · exact ⟨_, List.mem_cons_self .., hm⟩
        · exact hone hm
    | waitRestart r =>
        refine hgo ?_
        simp only [Task.step]
        split
        · exact hcaller hm
        · exact ⟨_, List.mem_cons_self .., hm⟩
    | persist _ k | persistGlobal _ k | status _ k =>
        refine hgo ?_
        simp only [Task.step]
        split
        · first | exact hone hm | exact watches_resume hm _
        · first | exact hone hm | exact watches_resume hm _
    | write _ k | writeGlobal _ k | keepWatcher _ k | keepGlobalWatcher _ k =>
        refine hgo ?_
        simp only [Task.step]
        split
        · exact watches_resume hm _
        · exact watches_resume hm _
    | syncWatcher _ _ k | syncGlobalWatcher _ k =>
        refine hgo ?_
        simp only [Task.step]
        split
        · exact watches_resume hm _
        · split
          · exact watches_resume hm _
          · exact watches_resume hm _
          · split
            · exact watches_resume hm _
            · exact ⟨_, List.mem_cons_self .., hm⟩
    | syncCapture _ _ k | writeStatus _ _ k =>
        refine hgo ?_
        simp only [Task.step]
        split
        · exact watches_resume hm _
        · split
          · exact hone hm
          · exact watches_resume hm _
    | keepCapture _ _ k =>
        refine hgo ?_
        simp only [Task.step]
        split
        · exact watches_resume hm _
        · exact watches_resume hm _
        · split <;> exact watches_resume hm _
    | _ => cases hm

end Watches

-- ── ready services stay covered ───────────────────────────────────────────────

section Covered

variable {env : Env} {s : Sys} {position : Nat} {t : Task}
variable {run service : String} {record record' : ServiceRecord}

/-- The standing that a locked step leaves a stored record with. -/
theorem standing_of_lock {w : World} {op : RunOp} (hstored : Stored (w.lock run op) run service record') :
    ∃ r, op.standingAfter r service = some (standing record') := by
  obtain ⟨r', hget, hrecord⟩ := hstored
  cases hbefore : w.runs[run]? with
  | none =>
      rw [World.lock, hbefore] at hget
      rw [hbefore] at hget
      cases hget
  | some r =>
      rw [World.lock, hbefore] at hget
      simp only [Std.ExtTreeMap.getElem?_insert_self] at hget
      cases hget
      refine ⟨r, ?_⟩
      rw [← RunOp.standing_apply, standingIn, hrecord]
      rfl

/-- A stopped service and a failed one are not ready. -/
theorem not_bright_of_standing {failure : Option String} {state : ServiceState}
    (hstate : state ≠ .ready) (h : standing record = (state, failure)) : ¬ Bright record :=
  fun hbright => hstate ((Prod.mk.inj h).1.symm.trans hbright.1)

/-- What a `down` goes on with. -/
theorem winds_step (hwinds : windsDown t = some run)
    (hattended : AttendedTask env s (s.2.eraseIdx position) t)
    (hstored : Stored (t.step env s.1).1 run service record') (hbright : Bright record') :
    (∃ t' ∈ (t.step env s.1).2, windsDown t' = some run)
      ∨ Covered (s.2.eraseIdx position) run service record' := by
  cases t with
  | listServices id kill purge =>
      cases hwinds
      simp only [Task.step] at hstored ⊢
      split at hstored
      · next hnone =>
          obtain ⟨r, hget, -⟩ := hstored
          rw [hnone] at hget
          cases hget
      · exact Or.inl ⟨_, List.mem_singleton.mpr rfl, rfl⟩
  | stopUnits id kill purge todo =>
      cases hwinds
      cases todo with
      | nil => exact Or.inl ⟨_, List.mem_singleton.mpr rfl, rfl⟩
      | cons name todo => exact Or.inl ⟨_, List.mem_singleton.mpr rfl, rfl⟩
  | releasePorts id purge =>
      cases hwinds
      have hsame : (Task.step env s.1 (.releasePorts run purge)).1 = s.1 := by
        rw [Task.step]
        split <;> rfl
      rw [hsame] at hstored
      rcases hattended service record' hstored hbright with hok | hcovered
      · refine Or.inl ⟨.markStopped run purge, ?_, rfl⟩
        simp only [Task.step, hok]
        exact List.mem_singleton.mpr rfl
      · exact Or.inr hcovered
  | markStopped id purge =>
      cases hwinds
      simp only [Task.step] at hstored
      split at hstored
      · next hnone =>
          obtain ⟨r, hget, -⟩ := hstored
          rw [hnone] at hget
          cases hget
      · obtain ⟨r, hstanding⟩ := standing_of_lock hstored
        simp only [RunOp.standingAfter, Option.map_eq_some_iff] at hstanding
        obtain ⟨before, -, hstopped⟩ := hstanding
        exact absurd hbright (not_bright_of_standing (by decide) hstopped.symm)
  | _ => cases hwinds

/-- **A READY SERVICE STAYS COVERED**, if it is ready after the step with the health
    handle it had. -/
theorem covered_step (hget : s.2[position]? = some t) (howned : OwnedIn s)
    (hattended : AttendedTask env s (s.2.eraseIdx position) t)
    (hstored : Stored s.1 run service record) (hcovered : Covered s.2 run service record)
    (hstored' : Stored (t.step env s.1).1 run service record') (hbright : Bright record')
    (hhealth : record'.handles.health = record.handles.health) :
    Covered (stepAt Task.step s (position, env)).2 run service record' := by
  have hnew : ∀ {t'}, t' ∈ (t.step env s.1).2 → t' ∈ (stepAt Task.step s (position, env)).2 :=
    fun h => (mem_stepAt_iff Task.step hget).mpr (Or.inl h)
  have hold : ∀ {t'}, t' ∈ s.2.eraseIdx position → t' ∈ (stepAt Task.step s (position, env)).2 :=
    fun h => (mem_stepAt_iff Task.step hget).mpr (Or.inr h)
  rcases hcovered with ⟨handle, hhandle, t₀, ht₀, hwatches⟩ | ⟨t₀, ht₀, hwinds⟩
  · rcases (mem_iff_eraseIdx hget).mp ht₀ with rfl | hother
    · rcases watches_step hwatches (howned.clear hstored hhandle) hstored hhandle with
        ⟨t', ht', hwatches'⟩ | ⟨m, rfl, rfl, rfl⟩
      · exact Or.inl ⟨handle, hhealth.trans hhandle, t', hnew ht', hwatches'⟩
      · -- at its restart limit the monitor marks its service failed
        obtain ⟨r, hstanding⟩ := standing_of_lock hstored'
        simp only [RunOp.standingAfter, RunOp.service, RunOp.leaves, if_true,
          Option.map_eq_some_iff] at hstanding
        obtain ⟨before, -, hfailed⟩ := hstanding
        exact absurd hbright (not_bright_of_standing (by decide) hfailed.symm)
    · exact Or.inl ⟨handle, hhealth.trans hhandle, t₀, hold hother, hwatches⟩
  · rcases (mem_iff_eraseIdx hget).mp ht₀ with rfl | hother
    · rcases winds_step hwinds hattended hstored' hbright with ⟨t', ht', hwinds'⟩ | hothers
      · exact Or.inr ⟨t', hnew ht', hwinds'⟩
      · rcases hothers with ⟨handle, hhandle, t', ht', hwatches⟩ | ⟨t', ht', hwinds'⟩
        · exact Or.inl ⟨handle, hhandle, t', hold ht', hwatches⟩
        · exact Or.inr ⟨t', hold ht', hwinds'⟩
    · exact Or.inr ⟨t₀, hold hother, hwinds⟩

/-- The records after a change of one service. -/
theorem stored_update {w : World} {id service' : String} {op : RunOp}
    {f : String → ServiceRecord → ServiceRecord × Option DaemonEvent}
    (hop : ∀ r, (op.apply r).1 = (updateAndRecompute r service' (f r.runId)).1)
    (hstored : Stored (w.lock id op) run service record') :
    Stored w run service record'
      ∨ (run = id ∧ service = service'
        ∧ ∃ record runId, Stored w run service record ∧ record' = (f runId record).1) := by
  rw [World.lock] at hstored
  split at hstored
  · next r hget =>
      rcases (stored_insert hget).mp hstored with ⟨rfl, hrecord'⟩ | ⟨-, hstored⟩
      · rw [hop, updateAndRecompute_services] at hrecord'
        split at hrecord'
        · next heq =>
            obtain ⟨record, hrecord, rfl⟩ := Option.map_eq_some_iff.mp hrecord'
            exact Or.inr ⟨rfl, heq, record, r.runId, ⟨r, hget, hrecord⟩, rfl⟩
        · exact Or.inl ⟨r, hget, hrecord'⟩
      · exact Or.inl hstored
  · exact Or.inl hstored

theorem readyRecord_kind (runId name now : String) (fresh : HandleId) (record : ServiceRecord) :
    (readyRecord runId name now fresh record).1.spec = record.spec := by
  simp only [readyRecord]
  split <;> simp

/-- What a delivered result leaves ready was ready, has its monitor, or gets one. -/
theorem ready_after_deliver {run' service' now : String} {result : Except String Unit}
    (hready : result = .ok () → CanReady s run' service')
    (hstored : Stored (deliver s.1 run' service' now result).1 run service record')
    (hbright : Bright record') :
    (∃ record, Stored s.1 run service record ∧ record'.handles.health = record.handles.health
        ∧ (Bright record ∨ Covered s.2 run service record))
      ∨ ∃ handle, record'.handles.health = some handle
        ∧ .monitorInit run service ∈ (deliver s.1 run' service' now result).2 := by
  cases result with
  | error reason =>
      have hdim : dimOp (.markFailed service' now reason) := trivial
      obtain ⟨record, hrecord, hbefore, hhealth⟩ := dims_lock hdim hstored hbright
      exact Or.inl ⟨record, hrecord, hhealth, Or.inl hbefore⟩
  | ok u =>
      have hmarked : Stored (s.1.lock run' (.markReady service' now s.1.nextHandle)) run service
          record' := by
        simp only [deliver, markReadyStep] at hstored
        split at hstored
        · split at hstored <;> exact hstored
        · exact hstored
      rcases stored_update (f := fun runId => readyRecord runId service' now s.1.nextHandle)
          (fun r => rfl) hmarked with hsame | ⟨rfl, rfl, record, runId, hrecord, rfl⟩
      · exact Or.inl ⟨record', hsame, rfl, Or.inl hbright⟩
      · have hkind : record.spec.readiness.kind ≠ .exit :=
          readyRecord_kind runId service now s.1.nextHandle record ▸ hbright.2
        have hcan := hready rfl record hrecord hkind
        cases hneeds : needsMonitor record with
        | false =>
            -- it has a handle already
            have hsome : record.handles.health.isSome = true := by
              rw [needsMonitor, decide_eq_true hkind, Bool.and_true] at hneeds
              cases hhealth : record.handles.health with
              | none => rw [hhealth] at hneeds; cases hneeds
              | some handle => rfl
            rw [if_pos hsome] at hcan
            exact Or.inl ⟨record, hrecord, congrArg (·.health) (readyRecord_handles hneeds),
              Or.inr hcan⟩
        | true =>
            obtain ⟨r, hr, hs⟩ := hrecord
            have hget : (s.1.runs[run]?).bind (fun r => r.services[service]?) = some record := by
              rw [hr]
              exact hs
            have hset : needsMonitor (setLastFailure
                (setServiceState runId service now record .ready).1 none) = true := by
              rw [needsMonitor] at hneeds ⊢
              simpa using hneeds
            refine Or.inr ⟨s.1.nextHandle, ?_, ?_⟩
            · simp only [readyRecord, hset, if_true]
            · simp only [deliver, markReadyStep, hget, hneeds, if_true]
              exact List.mem_singleton.mpr rfl

/-- A task that marks no service ready leaves only those ready that were, or that have
    their monitor. -/
theorem ready_before (hlights : delivers t = none)
    (hattended : AttendedTask env s (s.2.eraseIdx position) t)
    (hstored : Stored (t.step env s.1).1 run service record') (hbright : Bright record') :
    (∃ record, Stored s.1 run service record ∧ record'.handles.health = record.handles.health
        ∧ (Bright record ∨ Covered s.2 run service record))
      ∨ ∃ t' ∈ (t.step env s.1).2, windsDown t' = some run := by
  have hbefore : ∀ {record}, Stored s.1 run service record → Bright record →
      record'.handles.health = record.handles.health →
      (∃ record, Stored s.1 run service record ∧ record'.handles.health = record.handles.health
          ∧ (Bright record ∨ Covered s.2 run service record))
        ∨ ∃ t' ∈ (t.step env s.1).2, windsDown t' = some run :=
    fun hrecord hb hhealth => Or.inl ⟨_, hrecord, hhealth, Or.inl hb⟩
  cases hdim : lights t with
  | false =>
      rw [step_world] at hstored
      obtain ⟨record, hrecord, hb, hhealth⟩ :=
        dims_effects (fun e he => dim_of_makes hdim (makes_of_mem he)) hstored hbright
      exact hbefore hrecord hb hhealth
  | true =>
      cases t with
      | monitorProbe m =>
          have hprobed : Stored (s.1.lock m.run (.transition m.service env.now
              ((m.monitor.count (m.monitor.probe env.engine env.obs) env.now).transition
                (m.monitor.probe env.engine env.obs)))) run service record' := hstored
          cases hchange : (m.monitor.count (m.monitor.probe env.engine env.obs) env.now).transition
              (m.monitor.probe env.engine env.obs) with
          | healthy | markDegraded =>
              rw [hchange] at hprobed
              obtain ⟨record, hrecord, hb, hhealth⟩ :=
                dims_lock (by rw [dimOp]; decide) hprobed hbright
              exact hbefore hrecord hb hhealth
          | recoverToReady =>
              rw [hchange] at hprobed
              rcases stored_update (f := fun runId => recoveredRecord runId m.service env.now)
                  (fun r => rfl) hprobed with hsame | ⟨rfl, rfl, record, runId, hrecord, rfl⟩
              · exact hbefore hsame hbright rfl
              · have hok : m.monitor.probe env.engine env.obs = true := by
                  rw [Monitor.transition] at hchange
                  split at hchange
                  · next hrecover => exact hrecover.1
                  · split at hchange <;> cases hchange
                by_cases hfailing : record.runtime.state = .degraded
                    ∧ record.runtime.lastFailure = some healthChecksFailing
                · have hrecovered : recoveredRecord runId m.service env.now record
                      = (setLastFailure (setServiceState runId m.service env.now record .ready).1
                          none, (setServiceState runId m.service env.now record .ready).2) := by
                    rw [recoveredRecord, if_pos hfailing]
                  rw [hrecovered] at hbright ⊢
                  refine Or.inl ⟨record, hrecord, by simp, Or.inr ?_⟩
                  exact hattended record hrecord hok (by simpa using hbright.2)
                    (Prod.ext hfailing.1 hfailing.2)
                · rw [recoveredRecord, if_neg hfailing] at hbright ⊢
                  exact Or.inl ⟨record, hrecord, rfl, Or.inl hbright⟩
      | writeStatus id copy k =>
          simp only [Task.step] at hstored
          split at hstored
          · exact hbefore hstored hbright rfl
          · next r hget =>
              rw [World.lock, hget] at hstored
              rcases (stored_insert hget).mp hstored with ⟨rfl, hrecord'⟩ | ⟨-, hsame⟩
              · simp only [RunOp.apply, DevstackStatus.reconcile, Std.ExtTreeMap.getElem?_map,
                  buildStatus_get] at hrecord'
                obtain ⟨record, hrecord, rfl⟩ := Option.map_eq_some_iff.mp hrecord'
                have hin : Stored s.1 run service record := ⟨r, hget, hrecord⟩
                cases hold : copy.services[service]? with
                | none =>
                    simp only [hold, Option.map_none] at hbright ⊢
                    exact Or.inl ⟨record, hin, rfl, Or.inl hbright⟩
                | some old =>
                    simp only [hold, Option.map_some] at hbright ⊢
                    by_cases hready : record.runtime.state = .ready
                    · exact Or.inl ⟨record, hin, rfl, Or.inl ⟨hready, hbright.2⟩⟩
                    · refine Or.inl ⟨record, hin, rfl, Or.inr ?_⟩
                      exact hattended service record old hin hold hbright.1 hready hbright.2
              · exact hbefore hsame hbright rfl
      | applyUnchanged job prepared name rest =>
          simp only [Task.step] at hstored
          split at hstored
          · exact hbefore hstored hbright rfl
          · next r hget =>
              rw [World.lock, hget] at hstored
              rcases (stored_insert hget).mp hstored with ⟨rfl, hrecord'⟩ | ⟨-, hsame⟩
              · rw [RunOp.apply, updateService_services] at hrecord'
                split at hrecord'
                · next heq =>
                    subst heq
                    obtain ⟨record, hrecord, rfl⟩ := Option.map_eq_some_iff.mp hrecord'
                    have hin : Stored s.1 job.runId service record := ⟨r, hget, hrecord⟩
                    have hstate : record.runtime.state = .ready := by
                      rw [← applyPreparedToRuntime_runtime record prepared]
                      exact hbright.1
                    have hspec : (applyPreparedToRuntime record prepared false).1.spec
                        = prepared.spec := applyPreparedToRuntime_spec record prepared
                    have hhealth : (applyPreparedToRuntime record prepared false).1.handles.health
                        = record.handles.health := by rw [applyPreparedToRuntime_handles]
                    by_cases hkind : record.spec.readiness.kind = .exit
                    · refine Or.inl ⟨record, hin, hhealth, Or.inr ?_⟩
                      refine hattended record hin hstate hkind ?_
                      have hkind' := hbright.2
                      rw [hspec] at hkind'
                      exact hkind'
                    · exact hbefore hin ⟨hstate, hkind⟩ hhealth
                · exact hbefore ⟨r, hget, hrecord'⟩ hbright rfl
              · exact hbefore hsame hbright rfl
      | stopHandles id kill purge =>
          simp only [Task.step, World.lock] at hstored
          split at hstored
          · next r hget =>
              rcases (stored_insert hget).mp hstored with ⟨rfl, -⟩ | ⟨-, hsame⟩
              · exact Or.inr ⟨_, List.mem_singleton.mpr rfl, rfl⟩
              · exact hbefore hsame hbright rfl
          · exact hbefore hstored hbright rfl
      | waitRestart r | waitReadiness id name launch | handleReadiness job launch name rest =>
          cases hlights
      | _ => cases hdim

/-- A task that marks a service does nothing else to the records. -/
theorem deliver_step {run' service' : String} (hdelivers : delivers t = some (run', service'))
    (hattended : AttendedTask env s (s.2.eraseIdx position) t) :
    (t.step env s.1).1 = s.1
      ∨ ((t.step env s.1).1 = (deliver s.1 run' service' env.now env.readiness).1
        ∧ (∀ t' ∈ (deliver s.1 run' service' env.now env.readiness).2, t' ∈ (t.step env s.1).2)
        ∧ (env.readiness = .ok () → CanReady s run' service')) := by
  cases t with
  | waitRestart r =>
      cases hdelivers
      simp only [Task.step]
      split
      · exact Or.inl rfl
      · exact Or.inr ⟨rfl, fun t' ht' => List.mem_cons_of_mem _ ht', hattended⟩
  | waitReadiness id name launch =>
      cases hdelivers
      exact Or.inr ⟨rfl, fun t' ht' => List.mem_cons_of_mem _ ht', hattended⟩
  | handleReadiness job launch name rest =>
      obtain ⟨rfl, rfl⟩ : job.runId = run' ∧ name = service' := by
        cases hdelivers
        exact ⟨rfl, rfl⟩
      simp only [Task.step]
      split
      · exact Or.inl rfl
      · next hwait =>
          split
          · exact Or.inl rfl
          · refine Or.inr ⟨rfl, fun t' ht' => ?_, hattended (Bool.eq_false_iff.mpr hwait)⟩
            dsimp only
            split <;> exact List.mem_cons_of_mem _ ht'
  | _ => cases hdelivers

end Covered

-- ── runs ──────────────────────────────────────────────────────────────────────

/-- What every attended step keeps. -/
structure Kept (s : Sys) : Prop where
  owned : OwnedIn s
  single : (s.2.filterMap (monitors s.1.raised)).Nodup
  covered : ∀ {run service record}, Stored s.1 run service record → Bright record →
    Covered s.2 run service record

theorem covered_run {s : Sys} {position : Nat} {env : Env} {t : Task}
    (hget : s.2[position]? = some t) (h : Kept s)
    (hattended : AttendedTask env s (s.2.eraseIdx position) t) {run service : String}
    {record : ServiceRecord} (hstored : Stored (t.step env s.1).1 run service record)
    (hbright : Bright record) :
    Covered (stepAt Task.step s (position, env)).2 run service record := by
  have hnew : ∀ {t'}, t' ∈ (t.step env s.1).2 → t' ∈ (stepAt Task.step s (position, env)).2 :=
    fun h => (mem_stepAt_iff Task.step hget).mpr (Or.inl h)
  have hbefore : (∃ before, Stored s.1 run service before
        ∧ record.handles.health = before.handles.health
        ∧ (Bright before ∨ Covered s.2 run service before)) →
      Covered (stepAt Task.step s (position, env)).2 run service record := by
    rintro ⟨before, hstored', hhealth, hcovered⟩
    exact covered_step hget h.owned hattended hstored' (hcovered.elim (h.covered hstored') id)
      hstored hbright hhealth
  cases hdelivers : delivers t with
  | none =>
      rcases ready_before hdelivers hattended hstored hbright with hfound | ⟨t', ht', hwinds⟩
      · exact hbefore hfound
      · exact Or.inr ⟨t', hnew ht', hwinds⟩
  | some key =>
      rcases deliver_step hdelivers hattended with hsame | ⟨hworld, hspawned, hready⟩
      · rw [hsame] at hstored
        exact hbefore ⟨record, hstored, rfl, Or.inl hbright⟩
      · rw [hworld] at hstored
        rcases ready_after_deliver hready hstored hbright with hfound | ⟨handle, hhandle, hmem⟩
        · exact hbefore hfound
        · exact Or.inl ⟨handle, hhandle, _, hnew (hspawned _ hmem), Or.inl rfl⟩

theorem single_run {s : Sys} {position : Nat} {env : Env} {t : Task}
    (hget : s.2[position]? = some t) (h : Kept s)
    (hattended : AttendedTask env s (s.2.eraseIdx position) t) :
    ((stepAt Task.step s (position, env)).2.filterMap
      (monitors (t.step env s.1).1.raised)).Nodup := by
  have hraised : ∀ h ∈ s.1.raised, h ∈ (t.step env s.1).1.raised := raised_step t
  have hnow : ∀ {t' : Task} {key : String × String},
      monitors (t.step env s.1).1.raised t' = some key → monitors s.1.raised t' = some key :=
    monitors_before hraised
  -- flags that are raised only take monitors away
  have hfewer : (s.2.filterMap (monitors (t.step env s.1).1.raised)).Nodup := by
    refine h.single.sublist ?_
    generalize s.2 = ts
    induction ts with
    | nil => exact List.Sublist.refl _
    | cons t' ts ih =>
        cases hlater : monitors (t.step env s.1).1.raised t' with
        | some key =>
            rw [List.filterMap_cons_some hlater, List.filterMap_cons_some (hnow hlater)]
            exact ih.cons_cons key
        | none =>
            rw [List.filterMap_cons_none hlater, List.filterMap_cons]
            split
            · exact ih
            · exact ih.cons _
  rcases monitors_step env s.1 (t.step env s.1).1.raised t with hsub | ⟨key, hdelivers, hmem, hsub⟩
  · exact nodup_stepAt Task.step _ hget hfewer (Or.inl hsub)
  · refine nodup_stepAt_fresh Task.step hget hfewer hsub (fun t' ht' hlater => ?_)
    exact fresh_of_attended hattended hdelivers hmem t' ht' (hnow hlater)

theorem kept_sysStep (s : Sys) (a : Action) (h : Kept s) (hattended : Attended s a) :
    Kept (sysStep s a) := by
  have howned := owned_sysStep s a h.owned
  cases a with
  | request request =>
      simp only [sysStep] at howned ⊢
      split
      · next hserving =>
          rw [if_pos hserving] at howned
          refine ⟨howned, ?_, fun {run service record} hstored hbright => ?_⟩
          · have hnone : [request.task].filterMap (monitors s.1.raised) = [] := by
              cases request <;> rfl
            show ((s.2 ++ [request.task]).filterMap (monitors s.1.raised)).Nodup
            rw [List.filterMap_append, hnone, List.append_nil]
            exact h.single
          · rcases h.covered hstored hbright with ⟨handle, hhandle, t, ht, hwatches⟩ | ⟨t, ht, hwinds⟩
            · exact Or.inl ⟨handle, hhandle, t, List.mem_append_left _ ht, hwatches⟩
            · exact Or.inr ⟨t, List.mem_append_left _ ht, hwinds⟩
      · exact h
  | run position env =>
      have hstep : sysStep s (.run position env) = stepAt Task.step s (position, env) := rfl
      rw [hstep] at howned ⊢
      cases hget : s.2[position]? with
      | none =>
          rw [stepAt_none Task.step hget]
          exact h
      | some t =>
          have hworld : (stepAt Task.step s (position, env)).1 = (t.step env s.1).1 := by
            rw [stepAt_some Task.step hget]
          refine ⟨howned, ?_, fun {run service record} hstored hbright => ?_⟩
          · rw [hworld]
            exact single_run hget h (hattended t hget)
          · rw [hworld] at hstored
            exact covered_run hget h (hattended t hget) hstored hbright
  | daemonRestart answers =>
      refine ⟨howned, List.nodup_nil, fun {run service record} hstored hbright => ?_⟩
      obtain ⟨manifest, prepared, saved, p, hmanifest, hrestorable, hprepared, hsaved, hp, rfl⟩ :=
        stored_restart hstored
      have hkind : (restoredService saved p).spec.readiness = p.readiness := by
        simp only [restoredService]
        split <;> rfl
      refine absurd ?_ (hkind ▸ hbright.2)
      exact hattended run service manifest prepared saved p hmanifest hrestorable hprepared hsaved hp
        hbright.1

/-- One monitor each, of what is kept. -/
theorem monitored_of_kept {s : Sys} (h : Kept s) : Monitored s := by
  have hcount : ∀ run service, monitorCount s run service
      = (s.2.filterMap (monitors s.1.raised)).count (run, service) := by
    intro run service
    rw [monitorCount, List.count, List.countP_filterMap]
    refine List.countP_congr (fun t _ => ?_)
    cases monitors s.1.raised t <;> simp
  have hatMost : ∀ run service, monitorCount s run service ≤ 1 := by
    intro run service
    rw [hcount]
    exact List.nodup_iff_count_le_one.mp h.single _
  refine ⟨hatMost, fun run service record hstored hbright hquiet => ?_⟩
  rcases h.covered hstored hbright with ⟨handle, hhandle, t, ht, hwatches⟩ | ⟨t, ht, hwinds⟩
  · refine Nat.le_antisymm (hatMost run service) (List.countP_pos_iff.mpr ⟨t, ht, ?_⟩)
    rcases hwatches with rfl | ⟨m, hm, rfl, rfl, rfl⟩
    · exact decide_eq_true rfl
    · refine decide_eq_true ?_
      have hclear := h.owned.clear hstored hhandle
      cases t with
      | monitorInit run service => exact nomatch hm
      | _ => simp only [monitors, hm, if_neg hclear]
  · exact absurd hwinds (hquiet t ht)

/-- **ONE MONITOR EACH**, in every state that a run of attended steps reaches. -/
theorem one_monitor_each {as : List Action} (hattended : Along sysStep Attended start as) :
    Monitored (run sysStep start as) := by
  refine monitored_of_kept (guarded_invariant sysStep kept_sysStep as start ?_ hattended)
  refine ⟨owned_reached [], List.nodup_nil, fun {run service record} hstored => ?_⟩
  obtain ⟨r, hget, -⟩ := hstored
  simp [start] at hget

-- ── a service that becomes ready ──────────────────────────────────────────────

/-- Tasks whose step is under no condition. -/
def unconditional : Task → Bool
  | .waitRestart _ | .waitReadiness .. | .monitorProbe _ | .writeStatus .. | .applyUnchanged ..
  | .releasePorts .. => false
  | .handleReadiness job _ _ _ => job.noWait
  | _ => true

def unconditionalStep (s : Sys) : Action → Bool
  | .request _ => true
  | .run position _ => (s.2[position]?).all unconditional
  | .daemonRestart _ => false

theorem attended_of_unconditional {s : Sys} {a : Action} (h : unconditionalStep s a = true) :
    Attended s a := by
  cases a with
  | request request => trivial
  | daemonRestart answers => exact nomatch h
  | run position env =>
      intro t hget
      rw [unconditionalStep, hget, Option.all_some] at h
      cases t with
      | handleReadiness job launch name rest =>
          intro hwait
          rw [show job.noWait = true from h] at hwait
          exact nomatch hwait
      | waitRestart | waitReadiness | monitorProbe | writeStatus | applyUnchanged | releasePorts =>
          exact nomatch h
      | _ => trivial

theorem along_unconditional (as : List Action) (s : Sys)
    (h : Along sysStep (fun s a => unconditionalStep s a = true) s as) :
    Along sysStep Attended s as :=
  @along_of_guarded _ _ sysStep (fun _ => True) _ _ (fun _ _ _ _ => trivial)
    (fun _ _ _ => attended_of_unconditional) as s trivial h

/-- `up --no-wait`, the readiness task, and the first steps of the monitor. -/
def upReady : List Action := upWeb ++ .run 0 smooth :: List.replicate 5 (.run 0 smooth)

/-- The record of the service that `upWeb` launches. -/
def webRecord (w : World) : Option ServiceRecord :=
  (w.runs["dev-1"]?).bind (fun r => r.services["web"]?)

theorem upReady_attended : Along sysStep Attended start upReady := by
  refine (along_append sysStep Attended start upWeb _).mpr
    ⟨along_unconditional upWeb start (by decide), ?_, along_unconditional _ _ (by decide)⟩
  -- the readiness task finds neither a handle nor a monitor
  intro t hget
  have htasks : (run sysStep start upWeb).2 = [.waitReadiness "dev-1" "web" 1] := by rfl
  rw [htasks] at hget
  cases hget
  rintro - record ⟨r, hr, hs⟩ hkind
  have hrecord : webRecord (run sysStep start upWeb).1 = some record := by
    rw [webRecord, hr]
    exact hs
  have hnone : (webRecord (run sysStep start upWeb).1).map (·.handles.health) = some none := by
    decide
  rw [hrecord, Option.map_some] at hnone
  rw [Option.some.inj hnone, if_neg (by simp)]
  intro t ht
  rw [htasks] at ht
  rw [List.mem_singleton.mp ht]
  exact fun h => nomatch h

theorem one_monitor_each_web : Monitored (run sysStep start upReady) :=
  one_monitor_each upReady_attended

-- ── a daemon that restarts ────────────────────────────────────────────────────

/-- Every path exists, and the snapshot of the run still has the service. -/
def restoresWeb : RestoreAnswers where
  pathExists _ := true
  runPrepared _ := some (fun _ => some (.plain "web" "serve" []))
  globalPrepared _ := none

/-- The service is ready and its manifest is written; then the daemon restarts and comes
    up again. -/
def readyRestart : List Action :=
  upWeb ++ List.replicate 3 (.run 0 smooth) ++ .daemonRestart restoresWeb
    :: List.replicate 5 (.run 0 smooth)

/-- The restored service is ready, nothing is in progress, and it has no monitor. -/
theorem unmonitored_after_restart : ¬ ∀ as, Monitored (run sysStep start as) := by
  intro h
  have hready : (webRecord (run sysStep start readyRestart).1).map
      (fun record => (record.runtime.state, record.spec.readiness.kind))
        = some (.ready, .none) := by
    decide +kernel
  obtain ⟨record, hrecord, hstate⟩ := Option.map_eq_some_iff.mp hready
  obtain ⟨r, hr, hs⟩ := Option.bind_eq_some_iff.mp hrecord
  have hidle : (run sysStep start readyRestart).2 = [] := by
    have hempty : (run sysStep start readyRestart).2.isEmpty = true := by decide +kernel
    exact List.isEmpty_iff.mp hempty
  have hone := (h readyRestart).each "dev-1" "web" record ⟨r, hr, hs⟩
    ⟨(Prod.mk.inj hstate).1, by rw [(Prod.mk.inj hstate).2]; decide⟩
    (fun t ht => by rw [hidle] at ht; exact nomatch ht)
  rw [monitorCount, hidle] at hone
  exact nomatch hone

end DevstackMonitors
