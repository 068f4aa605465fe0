import Mathlib.Data.String.Basic
import Devstack.Daemon.Identity
import Devstack.Daemon.Successors

/-! # Active runs — what `up` finds, and what it makes of it

    `up` looks for a run of its project and stack that is not stopped, and makes a
    new one when there is none.  Between the look and the insertion of the new
    record it allocates ports, starts the globals and writes files; nothing keeps
    another `up` from looking meanwhile.

    A task that has looked and not yet inserted is `creating` its pair of project
    and stack.  As long as an `up` that finds no run is alone with its pair, there
    is one active run for each pair (`one_active`); two that look before either
    inserts leave two (`two_active`). -/

namespace DevstackActiveRuns

open DevstackModel DevstackStores DevstackHealth DevstackConfig DevstackLaunch DevstackStatus
open DevstackLocked DevstackWorld DevstackTasks DevstackSystem DevstackEffects
open DevstackSuccessors DevstackIdentity DevstackInterleaving DevstackMachine

/-- The project and the stack a run is looked up by. -/
def pairOf (run : RunRecord) : String × String := (run.projectDir, run.stack)

/-- A run that is not stopped. -/
def Active (w : World) (id : String) (run : RunRecord) : Prop :=
  w.runs[id]? = some run ∧ run.state ≠ .stopped

/-- At most one active run for each project and stack. -/
def OneActive (w : World) : Prop :=
  ∀ id run id' run', Active w id run → Active w id' run' → pairOf run = pairOf run' → id = id'

-- ── what `up` finds ───────────────────────────────────────────────────────────

/-- The runs that `find_latest_run_for_project_stack` chooses from. -/
def candidates (canonical : String → String) (w : World) (projectDir stack : String) :
    List (String × RunRecord) :=
  w.runs.toList.filter (fun kv =>
    decide (kv.2.stack = stack) && sameProjectDir canonical kv.2.projectDir projectDir
      && decide (kv.2.state ≠ .stopped) && kv.2.stoppedAt.isNone)

/-- One turn of its choice. -/
def laterRun (best : Option (String × String)) (kv : String × RunRecord) :
    Option (String × String) :=
  match best with
  | none => some (kv.2.createdAt, kv.2.runId)
  | some (createdAt, runId) =>
      if createdAt < kv.2.createdAt then some (kv.2.createdAt, kv.2.runId)
      else some (createdAt, runId)

/-- The choice keeps a candidate once it has one, and the one that it ends with has the
    greatest creation time. -/
theorem laterRun_greatest (l : List (String × RunRecord)) (best : String × String) :
    ∃ found, l.foldl laterRun (some best) = some found
      ∧ (found = best ∨ ∃ kv ∈ l, found = (kv.2.createdAt, kv.2.runId))
      ∧ best.1 ≤ found.1 ∧ ∀ kv ∈ l, kv.2.createdAt ≤ found.1 := by
  induction l generalizing best with
  | nil => exact ⟨best, rfl, Or.inl rfl, le_rfl, by simp⟩
  | cons kv l ih =>
      by_cases hlater : best.1 < kv.2.createdAt
      · obtain ⟨found, hfold, hfrom, hbest, hgreatest⟩ := ih (kv.2.createdAt, kv.2.runId)
        refine ⟨found, ?_, Or.inr ?_, hlater.le.trans hbest, ?_⟩
        · rw [List.foldl_cons, laterRun, if_pos hlater]
          exact hfold
        · rcases hfrom with rfl | ⟨kv', hkv', rfl⟩
          · exact ⟨kv, List.mem_cons_self .., rfl⟩
          · exact ⟨kv', List.mem_cons_of_mem _ hkv', rfl⟩
        · intro kv' hkv'
          rcases List.mem_cons.mp hkv' with rfl | hkv'
          · exact hbest
          · exact hgreatest kv' hkv'
      · obtain ⟨found, hfold, hfrom, hbest, hgreatest⟩ := ih best
        refine ⟨found, ?_, hfrom.imp id ?_, hbest, ?_⟩
        · rw [List.foldl_cons, laterRun, if_neg hlater]
          exact hfold
        · rintro ⟨kv', hkv', rfl⟩
          exact ⟨kv', List.mem_cons_of_mem _ hkv', rfl⟩
        · intro kv' hkv'
          rcases List.mem_cons.mp hkv' with rfl | hkv'
          · exact (le_of_not_gt hlater).trans hbest
          · exact hgreatest kv' hkv'

/-- The run that is chosen is one of the candidates, and none of them was created at a
    time that is greater as a text. -/
theorem exists_of_latest {l : List (String × RunRecord)} {id : String}
    (h : (l.foldl laterRun none).map (·.2) = some id) :
    ∃ kv ∈ l, kv.2.runId = id ∧ ∀ kv' ∈ l, kv'.2.createdAt ≤ kv.2.createdAt := by
  cases l with
  | nil => exact nomatch h
  | cons kv l =>
      obtain ⟨found, hfold, hfrom, hbest, hgreatest⟩ :=
        laterRun_greatest l (kv.2.createdAt, kv.2.runId)
      have hid : found.2 = id := by
        have hmap : Option.map (·.2) (some found) = some id := hfold ▸ h
        exact Option.some.inj hmap
      have hall : ∀ kv' ∈ kv :: l, kv'.2.createdAt ≤ found.1 := by
        intro kv' hkv'
        rcases List.mem_cons.mp hkv' with rfl | hkv'
        · exact hbest
        · exact hgreatest kv' hkv'
      rcases hfrom with rfl | ⟨kv', hkv', rfl⟩
      · exact ⟨kv, List.mem_cons_self .., hid, hall⟩
      · exact ⟨kv', List.mem_cons_of_mem _ hkv', hid, hall⟩

theorem eq_nil_of_no_latest {l : List (String × RunRecord)}
    (h : (l.foldl laterRun none).map (·.2) = none) : l = [] := by
  cases l with
  | nil => rfl
  | cons kv l =>
      obtain ⟨found, hfold, -⟩ := laterRun_greatest l (kv.2.createdAt, kv.2.runId)
      have hmap : Option.map (·.2) (some found) = none := hfold ▸ h
      exact nomatch hmap

section Latest

variable (canonical : String → String) (w : World) (projectDir stack : String)

theorem mem_candidates {kv : String × RunRecord} :
    kv ∈ candidates canonical w projectDir stack
      ↔ Active w kv.1 kv.2 ∧ kv.2.stack = stack
        ∧ sameProjectDir canonical kv.2.projectDir projectDir = true
        ∧ kv.2.stoppedAt = none := by
  rw [candidates, List.mem_filter, Std.ExtTreeMap.mem_toList_iff_getElem?_eq_some, Active]
  simp only [Bool.and_eq_true, decide_eq_true_eq, Option.isNone_iff_eq_none]
  constructor
  · rintro ⟨hget, ⟨⟨hstack, hdir⟩, hstate⟩, hnone⟩
    exact ⟨⟨hget, hstate⟩, hstack, hdir, hnone⟩
  · rintro ⟨⟨hget, hstate⟩, hstack, hdir, hnone⟩
    exact ⟨hget, ⟨⟨hstack, hdir⟩, hstate⟩, hnone⟩

theorem findLatest_eq :
    findLatestRunForProjectStack canonical w projectDir stack
      = ((candidates canonical w projectDir stack).foldl laterRun none).map (·.2) := rfl

variable {canonical w projectDir stack}

/-- A run that `up` finds is active. -/
theorem active_of_latest (hkeyed : Keyed w) {id : String}
    (h : findLatestRunForProjectStack canonical w projectDir stack = some id) :
    ∃ run, Active w id run := by
  obtain ⟨kv, hmem, hid, -⟩ := exists_of_latest (findLatest_eq canonical w projectDir stack ▸ h)
  obtain ⟨hactive, -⟩ := (mem_candidates ..).mp hmem
  refine ⟨kv.2, ?_⟩
  rwa [← hid, hkeyed.runs kv.1 kv.2 hactive.1]

/-- An active run that `up` does not find has a stop time. -/
theorem stopTime_of_none
    (h : findLatestRunForProjectStack canonical w projectDir stack = none) {id : String}
    {run : RunRecord} (hactive : Active w id run) (hpair : pairOf run = (projectDir, stack)) :
    run.stoppedAt ≠ none := by
  intro hnone
  obtain ⟨hdir, hstack⟩ := Prod.mk.inj hpair
  have hmem : (id, run) ∈ candidates canonical w projectDir stack := by
    rw [mem_candidates]
    exact ⟨hactive, hstack, by simp [sameProjectDir, hdir], hnone⟩
  rw [findLatest_eq] at h
  rw [eq_nil_of_no_latest h] at hmem
  exact absurd hmem List.not_mem_nil

end Latest

-- ── what a task will open ─────────────────────────────────────────────────────

/-- The run a task of `up` works towards: made new, or woken by a refresh. -/
structure Opening where
  runId : String
  pair : String × String
  creates : Bool
  deriving DecidableEq

def openingOf (job : UpJob) : Opening :=
  ⟨job.runId, (job.projectDir, job.plan.name), job.creates⟩

def contOpens : Cont → Option Opening
  | .globalPersisted _ _ _ (.up job) | .globalSynced _ _ (.up job) => some (openingOf job)
  | _ => none

/-- What a task has looked up and not yet opened. -/
def opens : Task → Option Opening
  | .refresh job | .stopRemoved job _ _ | .removeMissing job _ | .openRun job
  | .ensureGlobals _ (.up job) | .checkGlobal _ _ _ (.up job) | .startGlobal _ _ _ _ (.up job)
  | .waitGlobal _ _ _ _ _ _ (.up job) => some (openingOf job)
  | .persist _ k | .write _ k | .persistGlobal _ k | .writeGlobal _ k | .syncWatcher _ _ k
  | .keepWatcher _ k | .syncGlobalWatcher _ k | .keepGlobalWatcher _ k | .syncCapture _ _ k
  | .keepCapture _ _ k | .status _ k | .writeStatus _ _ k => contOpens k
  | _ => none

/-- The pair of project and stack a task will make a run of. -/
def creating (t : Task) : Option (String × String) :=
  (opens t).bind (fun o => if o.creates then some o.pair else none)

theorem creating_eq_some {t : Task} {pair : String × String} :
    creating t = some pair ↔ ∃ o, opens t = some o ∧ o.creates = true ∧ o.pair = pair := by
  rw [creating, Option.bind_eq_some_iff]
  constructor
  · rintro ⟨o, ho, hpair⟩
    split at hpair
    · next hcreates => exact ⟨o, ho, hcreates, Option.some.inj hpair⟩
    · exact nomatch hpair
  · rintro ⟨o, ho, hcreates, rfl⟩
    exact ⟨o, ho, if_pos hcreates⟩

theorem opens_spawned {t : Task} (h : spawned t = true) : opens t = none := by
  cases t <;> first | rfl | exact nomatch h

theorem opens_caller {caller : Caller} {t' : Task} (h : t' ∈ caller.resume) : opens t' = none := by
  cases caller with
  | request => exact nomatch h
  | monitor m => rcases mem_either h with rfl | rfl <;> rfl
  | watcher t => rw [List.mem_singleton.mp h]; rfl

theorem opens_globalsCaller {caller : GlobalsCaller} {result : Except String Unit} {t' : Task}
    (h : t' ∈ caller.resume result) :
    opens t' = none ∨ ∃ job, caller = .up job ∧ opens t' = some (openingOf job) := by
  cases caller with
  | up job =>
      cases result with
      | ok _ => rw [List.mem_singleton.mp h]; exact Or.inr ⟨job, rfl, rfl⟩
      | error err => exact nomatch h
  | boot key jobs =>
      cases result with
      | ok _ => rw [List.mem_singleton.mp h]; exact Or.inl rfl
      | error err => rw [List.mem_singleton.mp h]; exact Or.inl rfl

/-- What a call returns to opens what the call was made for. -/
theorem opens_resume {k : Cont} {result : Except String Unit} {t' : Task}
    (h : t' ∈ k.resume result) : opens t' = none ∨ opens t' = contOpens k := by
  have hcaller : ∀ {caller : GlobalsCaller} {result : Except String Unit},
      (∀ job, caller = .up job → contOpens k = some (openingOf job)) →
      t' ∈ caller.resume result → opens t' = none ∨ opens t' = contOpens k := by
    intro caller result hk hmem
    rcases opens_globalsCaller hmem with hnone | ⟨job, hjob, hopens⟩
    · exact Or.inl hnone
    · exact Or.inr (hopens.trans (hk job hjob).symm)
  cases k with
  | finish => exact nomatch h
  | restarted caller => exact Or.inl (opens_caller h)
  | monitorTurn m restart => rcases mem_either h with rfl | rfl <;> exact Or.inl rfl
  | statusRest runs =>
      cases runs with
      | nil => exact nomatch h
      | cons run runs =>
          cases result with
          | ok _ => rw [List.mem_singleton.mp h]; exact Or.inl rfl
          | error err => exact nomatch h
  | stopped run purge =>
      cases result with
      | error err => exact nomatch h
      | ok _ =>
          cases purge with
          | false => exact nomatch h
          | true => rw [List.mem_singleton.mp h]; exact Or.inl rfl
  | resumeRest run services =>
      cases services with
      | nil => exact nomatch h
      | cons service services => rw [List.mem_singleton.mp h]; exact Or.inl rfl
  | globalPersisted key failure rest caller =>
      cases result with
      | ok _ =>
          rw [List.mem_singleton.mp h]
          cases caller <;> exact Or.inr rfl
      | error err => exact hcaller (by rintro job rfl; rfl) h
  | globalSynced failure rest caller =>
      cases failure <;> cases result
      · exact hcaller (by rintro job rfl; rfl) h
      · rw [List.mem_singleton.mp h]
        cases caller <;> exact Or.inr rfl
      · exact hcaller (by rintro job rfl; rfl) h
      · exact hcaller (by rintro job rfl; rfl) h
  | launched job prepared launch start name rest =>
      cases start <;> rw [List.mem_singleton.mp h] <;> exact Or.inl rfl
  | captured job launch name rest =>
      cases result <;> rw [List.mem_singleton.mp h] <;> exact Or.inl rfl
  | boot jobs | unchangedSynced job name rest | launchRest job rest =>
      rw [List.mem_singleton.mp h]
      exact Or.inl rfl

/-- **WHAT A STEP OPENS**: nothing, what its task would open, or what `up` has looked
    up in this step. -/
theorem opens_step {env : Env} {w : World} {t t' : Task} (h : Succ env w t t') :
    opens t' = none ∨ opens t' = opens t
      ∨ (∃ request job, t = .up request ∧ t' = .refresh job ∧ job.creates = false
          ∧ findLatestRunForProjectStack env.canonical w request.projectDir request.stack
              = some job.runId)
      ∨ ∃ request plan rest job, t = .up request ∧ t' = .ensureGlobals job.globals (.up job)
          ∧ job.creates = true ∧ env.requested = .ok (plan, rest)
          ∧ openingOf job = ⟨job.runId, (request.projectDir, plan.name), true⟩
          ∧ (request.newRun = false → request.runId = none →
              findLatestRunForProjectStack env.canonical w request.projectDir request.stack
                = none) := by
  have hresume : ∀ {k : Cont} {result : Except String Unit}, t' ∈ k.resume result →
      contOpens k = opens t → opens t' = none ∨ opens t' = opens t := by
    intro k result hmem hk
    exact hk ▸ opens_resume hmem
  have hglobals : ∀ {caller : GlobalsCaller} {result : Except String Unit},
      t' ∈ caller.resume result → (∀ job, caller = .up job → opens t = some (openingOf job)) →
      opens t' = none ∨ opens t' = opens t := by
    intro caller result hmem hk
    rcases opens_globalsCaller hmem with hnone | ⟨job, hjob, hopens⟩
    · exact Or.inl hnone
    · exact Or.inr (hopens.trans (hk job hjob).symm)
  rw [← or_assoc]
  cases h with
  | upRefresh request job hcreates hlatest =>
      exact Or.inr (Or.inl ⟨request, job, rfl, rfl, hcreates, hlatest⟩)
  | upNew request plan configDir globals job hrequested hlatest hplan hdir hcreates =>
      refine Or.inr (Or.inr ⟨request, plan, (configDir, globals), job, rfl, rfl, hcreates,
        hrequested, ?_, hlatest⟩)
      rw [openingOf, hplan, hdir, hcreates]
  | persistGone hmem | writeResume hmem | persistGlobalGone hmem | writeGlobalResume hmem
  | syncWatcherResume hmem | keepWatcherResume hmem | syncGlobalWatcherResume hmem
  | keepGlobalWatcherResume hmem | syncCaptureResume hmem | keepCaptureResume hmem
  | statusGone hmem | writeStatusResume hmem =>
      exact Or.inl (hresume hmem rfl)
  | listRuns hmem | resumeWatch hmem => exact Or.inl (Or.inl ((opens_resume hmem).elim id id))
  | restartGone hmem | loadPostInitFailed hmem | restartUnitFailed hmem | waitRestartGone hmem =>
      exact Or.inl (Or.inl (opens_caller hmem))
  | ensureGlobalsDone hmem | checkGlobalFailed hmem =>
      exact Or.inl (hglobals hmem (by rintro job rfl; rfl))
  | ensureGlobalsNext target existing rest caller | checkGlobalPersist target existing rest caller
  | checkGlobalStart target existing prepared createdAt rest caller
  | startGlobal target prepared createdAt launch start rest caller
  | waitGlobal target prepared createdAt launch start failure rest caller =>
      cases caller <;> exact Or.inl (Or.inr rfl)
  | _ => exact Or.inl (by first | exact Or.inl rfl | exact Or.inr rfl)

-- ── tasks that stop and wake no run ───────────────────────────────────────────

def contQuiet : Cont → Bool
  | .statusRest _ | .stopped _ _ => false
  | _ => true

/-- Tasks of `up` without `new_run` and without `run_id`, and the daemon's own: the
    monitors, the watchers, the readiness tasks and what they call. -/
def quiet : Task → Bool
  | .up request => !request.newRun && request.runId.isNone
  | .status .. | .writeStatus .. | .listRuns | .stopHandles .. | .listServices ..
  | .stopUnits .. | .releasePorts .. | .markStopped .. | .purge _ | .gc => false
  | .persist _ k | .write _ k | .persistGlobal _ k | .writeGlobal _ k | .syncWatcher _ _ k
  | .keepWatcher _ k | .syncGlobalWatcher _ k | .keepGlobalWatcher _ k | .syncCapture _ _ k
  | .keepCapture _ _ k => contQuiet k
  | _ => true

theorem quiet_caller {caller : Caller} {t' : Task} (h : t' ∈ caller.resume) : quiet t' = true := by
  cases caller with
  | request => exact nomatch h
  | monitor m => rcases mem_either h with rfl | rfl <;> rfl
  | watcher t => rw [List.mem_singleton.mp h]; rfl

theorem quiet_globalsCaller {caller : GlobalsCaller} {result : Except String Unit} {t' : Task}
    (h : t' ∈ caller.resume result) : quiet t' = true := by
  cases caller with
  | up job =>
      cases result with
      | ok _ => rw [List.mem_singleton.mp h]; rfl
      | error err => exact nomatch h
  | boot key jobs => cases result <;> rw [List.mem_singleton.mp h] <;> rfl

theorem quiet_resume {k : Cont} (hk : contQuiet k = true) {result : Except String Unit}
    {t' : Task} (h : t' ∈ k.resume result) : quiet t' = true := by
  cases k with
  | finish => exact nomatch h
  | restarted caller => exact quiet_caller h
  | monitorTurn m restart => rcases mem_either h with rfl | rfl <;> rfl
  | statusRest runs | stopped run purge => exact nomatch hk
  | resumeRest run services =>
      cases services with
      | nil => exact nomatch h
      | cons service services => rw [List.mem_singleton.mp h]; rfl
  | globalPersisted key failure rest caller =>
      cases result with
      | ok _ => rw [List.mem_singleton.mp h]; rfl
      | error err => exact quiet_globalsCaller h
  | globalSynced failure rest caller =>
      cases failure <;> cases result
      · exact quiet_globalsCaller h
      · rw [List.mem_singleton.mp h]; rfl
      · exact quiet_globalsCaller h
      · exact quiet_globalsCaller h
  | launched job prepared launch start name rest =>
      cases start <;> rw [List.mem_singleton.mp h] <;> rfl
  | captured job launch name rest =>
      cases result <;> rw [List.mem_singleton.mp h] <;> rfl
  | boot jobs | unchangedSynced job name rest | launchRest job rest =>
      rw [List.mem_singleton.mp h]
      rfl

theorem quiet_step {env : Env} {w : World} {t t' : Task} (hquiet : quiet t = true)
    (h : Succ env w t t') : quiet t' = true := by
  cases h with
  | persistGone hmem | writeResume hmem | persistGlobalGone hmem | writeGlobalResume hmem
  | syncWatcherResume hmem | keepWatcherResume hmem | syncGlobalWatcherResume hmem
  | keepGlobalWatcherResume hmem | syncCaptureResume hmem | keepCaptureResume hmem =>
      exact quiet_resume hquiet hmem
  | resumeWatch hmem => exact quiet_resume rfl hmem
  | restartGone hmem | loadPostInitFailed hmem | restartUnitFailed hmem | waitRestartGone hmem =>
      exact quiet_caller hmem
  | ensureGlobalsDone hmem | checkGlobalFailed hmem => exact quiet_globalsCaller hmem
  | _ => first | rfl | exact hquiet | exact nomatch hquiet

theorem tame_deliver {w : World} {run service now : String} {result : Except String Unit}
    {e : Effect} (h : e ∈ deliverEffects w run service now result) : tame e = true := by
  rcases mem_deliver h with ⟨handle, rfl⟩ | ⟨reason, rfl⟩ | rfl <;> rfl

/-- Quiet tasks make, remove, stop and wake no run, but for the opening of a run. -/
theorem tame_of_makes {env : Env} {w : World} {t : Task} (hquiet : quiet t = true)
    (hopen : ∀ job, t ≠ .openRun job) {e : Effect} (h : Makes env w t e) : tame e = true := by
  cases h with
  | aside t haside =>
      cases e with
      | storePaused | unit | beginLaunch | writeGlobalManifest | serve => rfl
      | _ => exact nomatch haside
  | waitRestart r h | waitReadiness run service launch h | handleReadiness job launch name rest h =>
      exact tame_deliver h
  | openRun job baseEnv | createRun job baseEnv hfree => exact absurd rfl (hopen job)
  | writeStatus run copy k | markStopped run purge | purge run | gc => exact nomatch hquiet
  | _ => rfl

-- ── one step ──────────────────────────────────────────────────────────────────

theorem active_of_alike {w w' : World} (h : Alike w w') {id : String} {run' : RunRecord}
    (hactive : Active w' id run') : ∃ run, Active w id run ∧ pairOf run = pairOf run' := by
  have heq := h id
  rw [hactive.1, Option.map_some] at heq
  obtain ⟨run, hget, hprofile⟩ := Option.map_eq_some_iff.mp heq.symm
  obtain ⟨-, hprofile⟩ := Prod.mk.inj hprofile
  obtain ⟨hdir, hprofile⟩ := Prod.mk.inj hprofile
  obtain ⟨hstack, hstate⟩ := Prod.mk.inj hprofile
  exact ⟨run, ⟨hget, fun hstopped => hactive.2 ((decide_eq_decide.mp hstate).mp hstopped)⟩,
    Prod.ext hdir hstack⟩

/-- The step of a quiet task makes no run, unless it opens one. -/
theorem alike_step (env : Env) {w : World} {t : Task} (hquiet : quiet t = true)
    (hrefreshing : ∀ o, opens t = some o → o.creates = false → ∀ run,
      w.runs[o.runId]? = some run → run.state ≠ .stopped) :
    Alike w (t.step env w).1
      ∨ ∃ job baseEnv, t = .openRun job ∧ job.creates = true ∧ w.runs[job.runId]? = none
          ∧ (t.step env w).1 = w.createRun
            (.new job.runId job.plan.name job.projectDir job.configDir baseEnv env.now) := by
  by_cases hopen : ∃ job, t = .openRun job
  · obtain ⟨job, rfl⟩ := hopen
    simp only [Task.step]
    cases hbase : env.baseEnv with
    | error err => exact Or.inl (Alike.refl w)
    | ok baseEnv =>
        cases hrun : w.runs[job.runId]? with
        | none =>
            cases hcreates : job.creates with
            | false => exact Or.inl (Alike.refl w)
            | true => exact Or.inr ⟨job, baseEnv, rfl, hcreates, hrun, rfl⟩
        | some run =>
            cases hcreates : job.creates with
            | true => exact Or.inl (Alike.refl w)
            | false =>
                refine Or.inl (Alike.lock fun run' hrun' => ?_)
                exact profile_updateResources run' baseEnv
                  (hrefreshing (openingOf job) rfl hcreates run' hrun')
  · refine Or.inl ?_
    rw [step_world]
    exact alike_effects
      (fun e he => tame_of_makes hquiet (fun job hjob => hopen ⟨job, hjob⟩) (makes_of_mem he)) w

/-- What holds while every `up` that finds no run is alone with its pair. -/
structure Single (s : Sys) : Prop where
  keyed : Keyed s.1
  one : OneActive s.1
  quiet : ∀ t ∈ s.2, quiet t = true
  distinct : (s.2.filterMap creating).Nodup
  unopened : ∀ t ∈ s.2, ∀ pair, creating t = some pair →
    ∀ id run, Active s.1 id run → pairOf run ≠ pair
  refreshing : ∀ t ∈ s.2, ∀ o, opens t = some o → o.creates = false →
    ∀ run, s.1.runs[o.runId]? = some run → run.state ≠ .stopped

/-- The steps of concurrent `up` requests without `new_run` and without `run_id`, and
    of the daemon's own tasks; the plan an `up` loads is that of the stack it asks for. -/
def UpsOnly (s : Sys) : Action → Prop
  | .request (.up request) => request.newRun = false ∧ request.runId = none
  | .run position env =>
      ∀ request plan rest, s.2[position]? = some (.up request) →
        env.requested = .ok (plan, rest) →
        ∃ config only, stackPlanFiltered config request.stack only = .ok plan
  | _ => False

/-- An `up` that finds no run is alone: no other task is about to make a run of its
    project and stack, and no active run of them is hidden by a stop time. -/
def LooksAlone (s : Sys) : Action → Prop
  | .run position env =>
      ∀ request, s.2[position]? = some (.up request) →
        findLatestRunForProjectStack env.canonical s.1 request.projectDir request.stack = none →
        (∀ t ∈ s.2.eraseIdx position, creating t ≠ some (request.projectDir, request.stack))
          ∧ ∀ id run, Active s.1 id run → pairOf run = (request.projectDir, request.stack) →
              run.stoppedAt = none
  | _ => True

section Step

variable {s : Sys} {position : Nat} {env : Env} {t : Task}

/-- Only the first of the tasks a step leaves can open a run. -/
theorem creating_next :
    (t.step env s.1).2.filterMap creating = []
      ∨ ∃ t' pair, t' ∈ (t.step env s.1).2 ∧ creating t' = some pair
          ∧ (t.step env s.1).2.filterMap creating = [pair] := by
  have honward := onward_step env s.1 t
  cases hnext : (t.step env s.1).2 with
  | nil => exact Or.inl rfl
  | cons t' ts =>
      rw [hnext] at honward
      have hts : ts.filterMap creating = [] := by
        rw [List.filterMap_eq_nil_iff]
        intro t'' ht''
        rw [creating, opens_spawned (honward t'' ht''), Option.bind_none]
      cases hcreating : creating t' with
      | none => exact Or.inl (by rw [List.filterMap_cons_none hcreating, hts])
      | some pair =>
          exact Or.inr ⟨t', pair, List.mem_cons_self .., hcreating,
            by rw [List.filterMap_cons_some hcreating, hts]⟩

/-- Where the pair comes from that a task will make a run of. -/
theorem creating_step {t' : Task} (hquiet : quiet t = true) (hget : s.2[position]? = some t)
    (hups : UpsOnly s (.run position env)) (hmem : t' ∈ (t.step env s.1).2)
    {pair : String × String} (hpair : creating t' = some pair) :
    creating t = some pair
      ∨ ∃ request, t = .up request ∧ pair = (request.projectDir, request.stack)
          ∧ findLatestRunForProjectStack env.canonical s.1 request.projectDir request.stack
              = none := by
  obtain ⟨o, ho, hcreates, rfl⟩ := creating_eq_some.mp hpair
  rcases opens_step (succ_of_mem hmem) with hnone | hsame | ⟨request, job, -, rfl, hjob, -⟩
    | ⟨request, plan, rest, job, rfl, rfl, -, hrequested, hopening, hlatest⟩
  · rw [hnone] at ho
    exact nomatch ho
  · exact Or.inl (creating_eq_some.mpr ⟨o, hsame ▸ ho, hcreates, rfl⟩)
  · cases Option.some.inj ho
    rw [show (openingOf job).creates = job.creates from rfl, hjob] at hcreates
    exact nomatch hcreates
  · cases Option.some.inj ho
    obtain ⟨config, only, hplan⟩ := hups request plan rest hget hrequested
    simp only [DevstackActiveRuns.quiet, Bool.and_eq_true, Bool.not_eq_true',
      Option.isNone_iff_eq_none] at hquiet
    refine Or.inr ⟨request, rfl, ?_, hlatest hquiet.1 hquiet.2⟩
    rw [hopening, stackPlanFiltered_name hplan]

/-- The pairs stay apart. -/
theorem distinct_step (h : Single s) (hget : s.2[position]? = some t)
    (hups : UpsOnly s (.run position env)) (halone : LooksAlone s (.run position env)) :
    ((stepAt Task.step s (position, env)).2.filterMap creating).Nodup := by
  refine nodup_stepAt Task.step creating hget h.distinct ?_
  rcases creating_next with hnil | ⟨t', pair, hmem, hpair, hone⟩
  · exact Or.inl (hnil ▸ List.nil_sublist _)
  · rcases creating_step (h.quiet t (List.mem_of_getElem? hget)) hget hups hmem hpair with
      hsame | ⟨request, rfl, rfl, hlatest⟩
    · refine Or.inl ?_
      rw [hone, hsame]
      exact List.Sublist.refl _
    · exact Or.inr ⟨_, hone, (halone request hget hlatest).1⟩

/-- A step that makes no run keeps the runs single. -/
theorem single_alike (h : Single s) (hget : s.2[position]? = some t)
    (hups : UpsOnly s (.run position env)) (halone : LooksAlone s (.run position env))
    (halike : Alike s.1 (t.step env s.1).1) : Single (stepAt Task.step s (position, env)) := by
  have hquiet := h.quiet t (List.mem_of_getElem? hget)
  have hworld : (stepAt Task.step s (position, env)).1 = (t.step env s.1).1 := by
    rw [stepAt_some Task.step hget]
  refine ⟨keyed_sysStep s (.run position env) h.keyed, ?_, fun t' ht' => ?_,
    distinct_step h hget hups halone, fun t' ht' pair hpair => ?_, fun t' ht' o ho hcreates => ?_⟩
  · rw [hworld]
    intro id run' id' run'' hactive' hactive'' hpair
    obtain ⟨run, hactive, hrun⟩ := active_of_alike halike hactive'
    obtain ⟨run₂, hactive₂, hrun₂⟩ := active_of_alike halike hactive''
    exact h.one id run id' run₂ hactive hactive₂ (hrun.trans (hpair.trans hrun₂.symm))
  · rcases mem_stepAt Task.step hget ht' with hmem | hmem
    · exact quiet_step hquiet (succ_of_mem hmem)
    · exact h.quiet t' hmem
  · rw [hworld]
    intro id run' hactive'
    obtain ⟨run, hactive, hrun⟩ := active_of_alike halike hactive'
    rw [← hrun]
    rcases mem_stepAt Task.step hget ht' with hmem | hmem
    · rcases creating_step hquiet hget hups hmem hpair with hsame | ⟨request, rfl, rfl, hlatest⟩
      · exact h.unopened t (List.mem_of_getElem? hget) pair hsame id run hactive
      · intro hpair'
        exact stopTime_of_none hlatest hactive hpair'
          ((halone request hget hlatest).2 id run hactive hpair')
    · exact h.unopened t' hmem pair hpair id run hactive
  · rw [hworld]
    intro run' hrun'
    -- the run that a refresh will wake was active before, and still is
    have hkeep : (∀ run, s.1.runs[o.runId]? = some run → run.state ≠ .stopped) →
        run'.state ≠ .stopped := by
      intro hactive hstopped
      have heq := halike o.runId
      rw [hrun', Option.map_some] at heq
      obtain ⟨run, hrun, hprofile⟩ := Option.map_eq_some_iff.mp heq.symm
      have hstate := (Prod.mk.inj (Prod.mk.inj (Prod.mk.inj hprofile).2).2).2
      exact hactive run hrun ((decide_eq_decide.mp hstate).mpr hstopped)
    rcases mem_stepAt Task.step hget ht' with hmem | hmem
    · rcases opens_step (succ_of_mem hmem) with hnone | hsame
        | ⟨request, job, -, rfl, -, hlatest⟩
        | ⟨request, plan, rest, job, -, rfl, hjob, -⟩
      · rw [hnone] at ho
        exact nomatch ho
      · exact hkeep (h.refreshing t (List.mem_of_getElem? hget) o (hsame ▸ ho) hcreates)
      · cases Option.some.inj ho
        obtain ⟨run, hactive⟩ := active_of_latest h.keyed hlatest
        refine hkeep fun run₂ hrun₂ => ?_
        rw [show (openingOf job).runId = job.runId from rfl, hactive.1] at hrun₂
        cases hrun₂
        exact hactive.2
      · cases Option.some.inj ho
        rw [show (openingOf job).creates = job.creates from rfl, hjob] at hcreates
        exact nomatch hcreates
    · exact hkeep (h.refreshing t' hmem o ho hcreates)

/-- The step that makes a run makes the only active one of its pair. -/
theorem single_create (h : Single s) {job : UpJob} {run : RunRecord}
    (hget : s.2[position]? = some (.openRun job))
    (hups : UpsOnly s (.run position env)) (halone : LooksAlone s (.run position env))
    (hcreates : job.creates = true)
    (hid : run.runId = job.runId) (hpairOf : pairOf run = (job.projectDir, job.plan.name))
    (hstate : run.state ≠ .stopped)
    (hstep : ((Task.openRun job).step env s.1).1 = s.1.createRun run) :
    Single (stepAt Task.step s (position, env)) := by
  have hquiet := h.quiet (.openRun job) (List.mem_of_getElem? hget)
  have hworld : (stepAt Task.step s (position, env)).1 = s.1.createRun run := by
    rw [stepAt_some Task.step hget, hstep]
  have hcreating : creating (.openRun job) = some (pairOf run) := by
    rw [hpairOf]
    exact creating_eq_some.mpr ⟨openingOf job, rfl, hcreates, rfl⟩
  have hruns : ∀ id : String, (s.1.createRun run).runs[id]?
      = if id = job.runId then some run else s.1.runs[id]? := by
    intro id
    show (s.1.runs.insert run.runId run)[id]? = _
    rw [Std.ExtTreeMap.getElem?_insert, hid]
    by_cases heq : id = job.runId
    · rw [if_pos heq, if_pos (by rw [heq]; exact Std.ReflCmp.compare_self)]
    · rw [if_neg heq, if_neg fun hcmp => heq (Std.LawfulEqCmp.eq_of_compare hcmp).symm]
  have hactive : ∀ {id : String} {run' : RunRecord}, Active (s.1.createRun run) id run' →
      (id = job.runId ∧ run' = run) ∨ Active s.1 id run' := by
    rintro id run' ⟨hrun', hstate'⟩
    rw [hruns] at hrun'
    split at hrun'
    · next heq => exact Or.inl ⟨heq, (Option.some.inj hrun').symm⟩
    · exact Or.inr ⟨hrun', hstate'⟩
  -- what the step leaves opens nothing; the others are not creating this pair
  have htasks : ∀ t' ∈ (stepAt Task.step s (position, env)).2,
      (opens t' = none ∧ quiet t' = true) ∨ t' ∈ s.2.eraseIdx position := by
    intro t' ht'
    rcases (mem_stepAt_iff Task.step hget).mp ht' with hmem | hmem
    · have hsucc := succ_of_mem hmem
      refine Or.inl ⟨?_, quiet_step hquiet hsucc⟩
      cases hsucc
      rfl
    · exact Or.inr hmem
  have hothers := nodup_others hget h.distinct hcreating
  have hold : ∀ t' ∈ s.2.eraseIdx position, t' ∈ s.2 :=
    fun t' ht' => List.mem_of_mem_eraseIdx ht'
  refine ⟨keyed_sysStep s (.run position env) h.keyed, ?_, fun t' ht' => ?_,
    distinct_step h hget hups halone, fun t' ht' pair hpair => ?_, fun t' ht' o ho hopens => ?_⟩
  · rw [hworld]
    intro id₁ run₁ id₂ run₂ hactive₁ hactive₂ hpair
    have hunopened := h.unopened (.openRun job) (List.mem_of_getElem? hget) _ hcreating
    rcases hactive hactive₁ with ⟨hid₁, hrun₁⟩ | hold₁ <;>
      rcases hactive hactive₂ with ⟨hid₂, hrun₂⟩ | hold₂
    · rw [hid₁, hid₂]
    · exact absurd (hrun₁ ▸ hpair).symm (hunopened id₂ run₂ hold₂)
    · exact absurd (hrun₂ ▸ hpair) (hunopened id₁ run₁ hold₁)
    · exact h.one id₁ run₁ id₂ run₂ hold₁ hold₂ hpair
  · rcases htasks t' ht' with ⟨-, hquiet'⟩ | hmem
    · exact hquiet'
    · exact h.quiet t' (hold t' hmem)
  · rw [hworld]
    rcases htasks t' ht' with ⟨hnone, -⟩ | hmem
    · rw [creating, hnone] at hpair
      exact nomatch hpair
    · intro id run' hactive'
      rcases hactive hactive' with ⟨-, rfl⟩ | hactive'
      · rintro rfl
        exact hothers t' hmem hpair
      · exact h.unopened t' (hold t' hmem) pair hpair id run' hactive'
  · rw [hworld]
    rcases htasks t' ht' with ⟨hnone, -⟩ | hmem
    · rw [hnone] at ho
      exact nomatch ho
    · intro run' hrun'
      rw [hruns] at hrun'
      split at hrun'
      · exact Option.some.inj hrun' ▸ hstate
      · exact h.refreshing t' (hold t' hmem) o ho hopens run' hrun'

end Step

theorem single_sysStep (s : Sys) (a : Action) (h : Single s)
    (hok : UpsOnly s a ∧ LooksAlone s a) : Single (sysStep s a) := by
  obtain ⟨hups, halone⟩ := hok
  cases a with
  | daemonRestart answers => exact hups.elim
  | request request =>
      cases request with
      | up request =>
          rw [UpsOnly] at hups
          have hkeyed := keyed_sysStep s (.request (.up request)) h.keyed
          simp only [sysStep] at hkeyed ⊢
          split
          · have hnew : ∀ t ∈ s.2 ++ [Task.up request], t ∈ s.2 ∨ t = .up request := by
              intro t ht
              exact (List.mem_append.mp ht).imp_right List.mem_singleton.mp
            refine ⟨h.keyed, h.one, fun t ht => ?_, ?_, fun t ht pair hpair => ?_,
              fun t ht o ho => ?_⟩
            · rcases hnew t ht with ht | rfl
              · exact h.quiet t ht
              · simp [DevstackActiveRuns.quiet, hups.1, hups.2]
            · show ((s.2 ++ [Task.up request]).filterMap creating).Nodup
              rw [List.filterMap_append, show [Task.up request].filterMap creating = [] from rfl,
                List.append_nil]
              exact h.distinct
            · rcases hnew t ht with ht | rfl
              · exact h.unopened t ht pair hpair
              · cases hpair
            · rcases hnew t ht with ht | rfl
              · exact h.refreshing t ht o ho
              · cases ho
          · exact h
      | _ => exact hups.elim
  | run position env =>
      cases hget : s.2[position]? with
      | none =>
          rw [show sysStep s (.run position env) = stepAt Task.step s (position, env) from rfl,
            stepAt_none Task.step hget]
          exact h
      | some t =>
          have hmem := List.mem_of_getElem? hget
          rcases alike_step env (h.quiet t hmem) (h.refreshing t hmem) with
            halike | ⟨job, baseEnv, rfl, hcreates, -, hstep⟩
          · exact single_alike h hget hups halone halike
          · exact single_create h hget hups halone hcreates rfl rfl
              (show RunLifecycle.starting ≠ .stopped by decide) hstep

/-- **ONE ACTIVE RUN FOR EACH PROJECT AND STACK.**  From any state the daemon reaches
    with at most one, and in which no command is in progress, along every interleaving
    of `up` requests in which an `up` that finds no run is alone with its pair. -/
theorem one_active {before as : List Action}
    (hone : OneActive (run sysStep start before).1)
    (hidle : ∀ t ∈ (run sysStep start before).2, quiet t = true ∧ opens t = none)
    (hups : Along sysStep UpsOnly (run sysStep start before) as)
    (halone : Along sysStep LooksAlone (run sysStep start before) as) :
    Along sysStep (fun s a => OneActive (sysStep s a).1) (run sysStep start before) as := by
  have hnone : ∀ t ∈ (run sysStep start before).2, creating t = none := by
    intro t ht
    rw [creating, (hidle t ht).2, Option.bind_none]
  have hsingle : Single (run sysStep start before) := by
    refine ⟨keyed_reached before, hone, fun t ht => (hidle t ht).1, ?_, fun t ht pair hpair => ?_,
      fun t ht o ho => ?_⟩
    · rw [List.filterMap_eq_nil_iff.mpr hnone]
      exact List.nodup_nil
    · rw [hnone t ht] at hpair
      exact nomatch hpair
    · rw [(hidle t ht).2] at ho
      exact nomatch ho
  refine along_of_guarded sysStep single_sysStep
    (fun s a h hok => (single_sysStep s a h hok).one) as _ hsingle ?_
  exact along_and sysStep hups halone

-- ── two requests for one stack ────────────────────────────────────────────────

def webConfig : ConfigFile where
  version := 1
  stackConfigs := (∅ : BTreeMap StackConfig).insert "dev" ⟨webServices⟩
  defaultStack := none
  globals := none
  tasks := none
  env := ∅
  envFile := none

theorem webConfig_plan : stackPlanFiltered webConfig "dev" [] = .ok webPlan := rfl

/-- `up --no-wait` of the stack. -/
def upDev : Action := .request (.up ⟨"dev", "/app", none, true, false, false⟩)

/-- The stack that the task at a position is about to look up. -/
def looksFor (s : Sys) (position : Nat) : Option String :=
  match s.2[position]? with
  | some (.up request) => some request.stack
  | _ => none

theorem upsOnly_web {s : Sys} {position : Nat} (runId : String)
    (h : looksFor s position = none ∨ looksFor s position = some "dev") :
    UpsOnly s (.run position { smooth with newRunId := runId }) := by
  intro request plan rest hget hrequested
  cases hrequested
  rw [looksFor, hget] at h
  rcases h with h | h
  · exact nomatch h
  · rw [Option.some.inj h]
    exact ⟨webConfig, [], webConfig_plan⟩

theorem looksAlone_of_none {s : Sys} {position : Nat} {env : Env}
    (h : looksFor s position = none) : LooksAlone s (.run position env) := by
  intro request hget
  rw [looksFor, hget] at h
  exact nomatch h

/-- Two requests for one stack, of which the second looks when the first has inserted its run. -/
def upsInTurn : List Action :=
  let first := { smooth with newRunId := "dev-00000001" }
  let second := { smooth with newRunId := "dev-00000002" }
  [upDev, upDev, .run 0 first, .run 0 first, .run 0 first, .run 1 second, .run 1 second]

/-- The second refreshes the run that the first made. -/
theorem one_active_upsInTurn :
    (run sysStep start upsInTurn).1.runs.keys = ["dev-00000001"]
      ∧ Along sysStep (fun s a => OneActive (sysStep s a).1) start upsInTurn := by
  have hempty : ∀ id run, ¬ Active start.1 id run := by
    rintro id run ⟨hget, -⟩
    simp [start] at hget
  refine ⟨by decide +kernel, @one_active [] upsInTurn
    (fun id run _ _ hactive => absurd hactive (hempty id run)) (fun t ht => (by cases ht)) ?_ ?_⟩
  · exact ⟨⟨rfl, rfl⟩, ⟨rfl, rfl⟩, upsOnly_web _ (by decide), upsOnly_web _ (by decide),
      upsOnly_web _ (by decide), upsOnly_web _ (by decide), upsOnly_web _ (by decide), trivial⟩
  · refine ⟨trivial, trivial, ?_, looksAlone_of_none (by decide), looksAlone_of_none (by decide),
      ?_, looksAlone_of_none (by decide), trivial⟩
    · -- the first finds no run, and the second has not looked yet
      intro request hget _
      cases hget
      refine ⟨by decide, ?_⟩
      intro id run hactive
      exact absurd hactive (hempty id run)
    · -- the second finds the run of the first
      intro request hget hnone
      cases hget
      exact absurd hnone (by decide +kernel)

/-- Two requests for one stack that look before either inserts its run. -/
def twoUps : List Action :=
  let first := { smooth with newRunId := "dev-00000001" }
  let second := { smooth with newRunId := "dev-00000002" }
  [upDev, upDev, .run 0 first, .run 1 second, .run 0 first, .run 0 first, .run 1 second,
    .run 1 second]

/-- Both insert a run, and both runs are active. -/
theorem two_active :
    ¬ ∀ as, Along sysStep UpsOnly start as →
      Along sysStep (fun s a => OneActive (sysStep s a).1) start as := by
  intro h
  have hups : Along sysStep UpsOnly start twoUps :=
    ⟨⟨rfl, rfl⟩, ⟨rfl, rfl⟩, upsOnly_web _ (by decide), upsOnly_web _ (by decide),
      upsOnly_web _ (by decide), upsOnly_web _ (by decide), upsOnly_web _ (by decide),
      upsOnly_web _ (by decide), trivial⟩
  have hone : OneActive (run sysStep start twoUps).1 := (h twoUps hups).2.2.2.2.2.2.2.1
  have hrun : ∀ id ∈ ["dev-00000001", "dev-00000002"],
      ((run sysStep start twoUps).1.runs[id]?).map (fun r => (decide (r.state = .stopped), pairOf r))
        = some (false, ("/app", "dev")) := by
    decide
  obtain ⟨run₁, hrun₁, hpair₁⟩ := Option.map_eq_some_iff.mp (hrun "dev-00000001" (by decide))
  obtain ⟨run₂, hrun₂, hpair₂⟩ := Option.map_eq_some_iff.mp (hrun "dev-00000002" (by decide))
  obtain ⟨hstate₁, hpair₁⟩ := Prod.mk.inj hpair₁
  obtain ⟨hstate₂, hpair₂⟩ := Prod.mk.inj hpair₂
  exact absurd (hone "dev-00000001" run₁ "dev-00000002" run₂ ⟨hrun₁, of_decide_eq_false hstate₁⟩
    ⟨hrun₂, of_decide_eq_false hstate₂⟩ (hpair₁.trans hpair₂.symm)) (by decide)

end DevstackActiveRuns
