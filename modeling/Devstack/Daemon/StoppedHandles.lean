import Devstack.Daemon.System
import Devstack.Daemon.Successors

/-! # Stopped handles — what a monitor or a watcher does after its flag is raised

    A health monitor reads its flag before and after its sleep, a watcher at the top
    of its loop.  Between a read and what follows lie a probe, a debounce, a hash of
    the file tree, a backoff and a whole restart; a flag that is raised there is not
    seen until the task comes back to its loop.

    A task that cannot reach a record before it reads its flag again is `winding`.
    If every flag is raised while its task is winding, no task acts under a raised
    flag (`stopped_acts_no_more`); `down` during a probe leaves a monitor that marks
    the service it belonged to (`acts_after_down`). -/

namespace DevstackStoppedHandles

open DevstackModel DevstackReadiness DevstackHealth DevstackConfig DevstackLaunch
open DevstackLocked DevstackWorld DevstackTasks DevstackSystem DevstackSuccessors
open DevstackInterleaving DevstackMachine

-- ── whose task it is ──────────────────────────────────────────────────────────

def callerActsFor : Caller → Option HandleId
  | .request => none
  | .monitor m => some m.handle
  | .watcher t => some t.handle

def contActsFor : Cont → Option HandleId
  | .restarted caller => callerActsFor caller
  | .monitorTurn m _ => some m.handle
  | _ => none

/-- The handle of the monitor or watcher that a task is. -/
def actsFor : Task → Option HandleId
  | .monitorTop m | .monitorSlept m | .monitorProbe m | .monitorLimit m => some m.handle
  | .watcherTop t | .watcherEvent t | .watcherCompare t _ => some t.handle
  | .globalWatcherTop t | .globalWatcherEvent t | .globalWatcherCompare t _ | .restartGlobal t
  | .persistGlobalRestart t _ _ | .writeGlobalRestart _ t _ _ | .restartGlobalUnit t _ _ =>
      some t.handle
  | .restart _ _ _ caller => callerActsFor caller
  | .loadPostInit r | .restartUnit r | .restarted r | .waitRestart r => callerActsFor r.caller
  | .persist _ k | .write _ k | .persistGlobal _ k | .writeGlobal _ k | .syncWatcher _ _ k
  | .keepWatcher _ k | .syncGlobalWatcher _ k | .keepGlobalWatcher _ k | .syncCapture _ _ k
  | .keepCapture _ _ k | .status _ k | .writeStatus _ _ k => contActsFor k
  | _ => none

def contWinding : Cont → Bool
  | .restarted (.monitor m) => decide (m.monitor.restartCount < 3)
  | .restarted (.watcher _) => true
  | .monitorTurn _ restart => !restart
  | _ => false

/-- Tasks that read their flag again before they reach a record. -/
def winding : Task → Bool
  | .monitorTop _ | .monitorSlept _ | .watcherTop _ | .globalWatcherTop _ => true
  | .persist _ k | .write _ k => contWinding k
  | _ => false

-- ── one step ──────────────────────────────────────────────────────────────────

theorem actsFor_caller {caller : Caller} {t' : Task} (h : t' ∈ caller.resume) :
    actsFor t' = callerActsFor caller := by
  cases caller with
  | request => exact nomatch h
  | monitor m => rcases mem_either h with rfl | rfl <;> rfl
  | watcher t => rw [List.mem_singleton.mp h]; rfl

theorem actsFor_globalsCaller {caller : GlobalsCaller} {result : Except String Unit} {t' : Task}
    (h : t' ∈ caller.resume result) : actsFor t' = none := by
  cases caller with
  | up job =>
      cases result with
      | ok _ => rw [List.mem_singleton.mp h]; rfl
      | error err => exact nomatch h
  | boot key jobs => cases result <;> rw [List.mem_singleton.mp h] <;> rfl

/-- A call returns to the task that made it. -/
theorem actsFor_resume {k : Cont} {result : Except String Unit} {t' : Task}
    (h : t' ∈ k.resume result) : actsFor t' = none ∨ actsFor t' = contActsFor k := by
  cases k with
  | finish => exact nomatch h
  | restarted caller => exact Or.inr (actsFor_caller h)
  | monitorTurn m restart => rcases mem_either h with rfl | rfl <;> exact Or.inr rfl
  | statusRest runs =>
      cases runs with
      | nil => exact nomatch h
      | cons run runs =>
          cases result with
          | ok _ => rw [List.mem_singleton.mp h]; exact Or.inl rfl
          | error err => exact nomatch h
  | stopped run purge =>
      cases result with
      | error err => exact nomatch h
      | ok _ =>
          cases purge with
          | false => exact nomatch h
          | true => rw [List.mem_singleton.mp h]; exact Or.inl rfl
  | resumeRest run services =>
      cases services with
      | nil => exact nomatch h
      | cons service services => rw [List.mem_singleton.mp h]; exact Or.inl rfl
  | globalPersisted key failure rest caller =>
      cases result with
      | ok _ => rw [List.mem_singleton.mp h]; exact Or.inl rfl
      | error err => exact Or.inl (actsFor_globalsCaller h)
  | globalSynced failure rest caller =>
      cases failure <;> cases result
      · exact Or.inl (actsFor_globalsCaller h)
      · rw [List.mem_singleton.mp h]; exact Or.inl rfl
      · exact Or.inl (actsFor_globalsCaller h)
      · exact Or.inl (actsFor_globalsCaller h)
  | launched job prepared launch start name rest =>
      cases start <;> rw [List.mem_singleton.mp h] <;> exact Or.inl rfl
  | captured job launch name rest =>
      cases result <;> rw [List.mem_singleton.mp h] <;> exact Or.inl rfl
  | boot jobs | unchangedSynced job name rest | launchRest job rest =>
      rw [List.mem_singleton.mp h]
      exact Or.inl rfl

/-- **WHERE MONITORS AND WATCHERS COME FROM**: a task that acts for a handle was acting
    for it before the step, or starts at the top of its loop. -/
theorem actsFor_step {env : Env} {w : World} {t t' : Task} (h : Succ env w t t') :
    actsFor t' = none ∨ winding t' = true ∨ actsFor t' = actsFor t := by
  have hresume : ∀ {k : Cont} {result : Except String Unit}, t' ∈ k.resume result →
      contActsFor k = actsFor t →
      actsFor t' = none ∨ winding t' = true ∨ actsFor t' = actsFor t := by
    intro k result hmem hk
    rcases actsFor_resume hmem with hnone | hsame
    · exact Or.inl hnone
    · exact Or.inr (Or.inr (hsame.trans hk))
  cases h with
  | persistGone hmem | writeResume hmem | persistGlobalGone hmem | writeGlobalResume hmem
  | syncWatcherResume hmem | keepWatcherResume hmem | syncGlobalWatcherResume hmem
  | keepGlobalWatcherResume hmem | syncCaptureResume hmem | keepCaptureResume hmem
  | statusGone hmem | writeStatusResume hmem =>
      exact hresume hmem rfl
  | listRuns hmem | resumeWatch hmem => exact Or.inl ((actsFor_resume hmem).elim id id)
  | restartGone hmem | loadPostInitFailed hmem | restartUnitFailed hmem | waitRestartGone hmem =>
      exact Or.inr (Or.inr (actsFor_caller hmem))
  | ensureGlobalsDone hmem | checkGlobalFailed hmem => exact Or.inl (actsFor_globalsCaller hmem)
  | _ => first | exact Or.inl rfl | exact Or.inr (Or.inl rfl) | exact Or.inr (Or.inr rfl)

/-- A winding task touches no record. -/
theorem winding_world (env : Env) (w : World) {t : Task} (h : winding t = true) :
    (t.step env w).1.runs = w.runs ∧ (t.step env w).1.globals = w.globals
      ∧ (t.step env w).1.unitOps = w.unitOps ∧ (t.step env w).1.raised = w.raised := by
  cases t with
  | persist run k =>
      simp only [Task.step]
      split <;> exact ⟨rfl, rfl, rfl, rfl⟩
  | write manifest k =>
      simp only [Task.step]
      split <;> exact ⟨rfl, rfl, rfl, rfl⟩
  | monitorTop m | monitorSlept m | watcherTop t | globalWatcherTop t =>
      simp only [Task.step]
      split <;> exact ⟨rfl, rfl, rfl, rfl⟩
  | _ => cases h

theorem winding_resume {k : Cont} (hk : contWinding k = true) {result : Except String Unit}
    {t' : Task} (h : t' ∈ k.resume result) : winding t' = true := by
  cases k with
  | restarted caller =>
      cases caller with
      | request => exact nomatch h
      | monitor m =>
          have hless : ¬ 3 ≤ m.monitor.restartCount := Nat.not_le.mpr (of_decide_eq_true hk)
          have hmem : t' ∈ [Task.monitorTop m] := by
            rwa [Cont.resume, Caller.resume, if_neg hless] at h
          rw [List.mem_singleton.mp hmem]
          rfl
      | watcher t =>
          rw [List.mem_singleton.mp h]
          rfl
  | monitorTurn m restart =>
      cases restart with
      | true => exact nomatch hk
      | false =>
          rw [List.mem_singleton.mp h]
          rfl
  | _ => exact nomatch hk

/-- A winding task whose flag is raised ends, or winds on. -/
theorem winding_step {env : Env} {w : World} {t t' : Task} (hsucc : Succ env w t t')
    (h : winding t = true) {handle : HandleId} (hacts : actsFor t = some handle)
    (hraised : handle ∈ w.raised) : winding t' = true := by
  cases hsucc with
  | monitorTop m hheld | monitorSlept m hheld | watcherTop t hheld | globalWatcherTop t hheld =>
      exact absurd (Option.some.inj hacts ▸ hraised) hheld
  | persistWrite run record k hrun => exact h
  | persistGone hmem => exact winding_resume h hmem
  | writeResume hmem => exact winding_resume h hmem
  | _ => exact nomatch h

-- ── runs ──────────────────────────────────────────────────────────────────────

/-- Under a raised flag every task winds. -/
def Calm (s : Sys) : Prop :=
  ∀ t ∈ s.2, ∀ handle, actsFor t = some handle → handle ∈ s.1.raised → winding t = true

/-- A flag is raised only while its task is winding. -/
def RaisedInTime (s : Sys) (a : Action) : Prop :=
  ∀ handle ∈ (sysStep s a).1.raised, handle ∉ s.1.raised →
    ∀ t ∈ s.2, actsFor t = some handle → winding t = true

instance decidableRaisedInTime (s : Sys) (a : Action) : Decidable (RaisedInTime s a) :=
  inferInstanceAs (Decidable (∀ handle ∈ (sysStep s a).1.raised, handle ∉ s.1.raised →
    ∀ t ∈ s.2, actsFor t = some handle → winding t = true))

/-- A task acting for a raised handle changes no record and calls no manager. -/
def ActsNoMore (s : Sys) (a : Action) : Prop :=
  ∀ position env t handle, a = .run position env → s.2[position]? = some t →
    actsFor t = some handle → handle ∈ s.1.raised →
    (sysStep s a).1.runs = s.1.runs ∧ (sysStep s a).1.globals = s.1.globals
      ∧ (sysStep s a).1.unitOps = s.1.unitOps

theorem calm_sysStep (s : Sys) (a : Action) (h : Calm s) (htime : RaisedInTime s a) :
    Calm (sysStep s a) := by
  -- the other tasks: their flags were raised before, or are raised in time
  have hothers : ∀ t ∈ s.2, ∀ handle, actsFor t = some handle →
      handle ∈ (sysStep s a).1.raised → winding t = true := by
    intro t ht handle hacts hraised
    by_cases hbefore : handle ∈ s.1.raised
    · exact h t ht handle hacts hbefore
    · exact htime handle hraised hbefore t ht hacts
  cases a with
  | daemonRestart answers =>
      intro t ht handle hacts
      rw [List.mem_singleton.mp ht] at hacts
      exact nomatch hacts
  | request request =>
      simp only [sysStep] at hothers ⊢
      split
      · next hserving =>
          rw [if_pos hserving] at hothers
          intro t ht handle hacts hraised
          rcases List.mem_append.mp ht with ht | ht
          · exact hothers t ht handle hacts hraised
          · rw [List.mem_singleton.mp ht] at hacts
            cases request <;> exact nomatch hacts
      · exact h
  | run position env =>
      have hstep : sysStep s (.run position env) = stepAt Task.step s (position, env) := rfl
      cases hget : s.2[position]? with
      | none =>
          rw [hstep, stepAt_none Task.step hget]
          exact h
      | some t =>
          intro t' ht' handle hacts hraised
          rw [hstep] at ht'
          rcases mem_stepAt Task.step hget ht' with hmem | hmem
          · have hsucc := succ_of_mem hmem
            have ht := List.mem_of_getElem? hget
            rcases actsFor_step hsucc with hnone | hwinding | hsame
            · rw [hnone] at hacts
              exact nomatch hacts
            · exact hwinding
            · rw [hsame] at hacts
              have hwinding := hothers t ht handle hacts hraised
              rw [hstep, stepAt_some Task.step hget] at hraised
              exact winding_step hsucc hwinding hacts
                ((winding_world env s.1 hwinding).2.2.2 ▸ hraised)
          · exact hothers t' hmem handle hacts hraised

/-- **A STOPPED MONITOR OR WATCHER ACTS NO MORE**, along every run of the daemon in
    which each flag is raised while its task is winding. -/
theorem stopped_acts_no_more {as : List Action} (htime : Along sysStep RaisedInTime start as) :
    Along sysStep ActsNoMore start as := by
  refine along_of_guarded sysStep calm_sysStep (fun s a h _ => ?_) as start
    (fun t ht => (nomatch ht)) htime
  rintro position env t handle rfl hget hacts hraised
  have hwinding := h t (List.mem_of_getElem? hget) handle hacts hraised
  obtain ⟨hruns, hglobals, hunits, -⟩ := winding_world env s.1 hwinding
  have hstep : (sysStep s (.run position env)).1 = (t.step env s.1).1 := by
    rw [show sysStep s (.run position env) = stepAt Task.step s (position, env) from rfl,
      stepAt_some Task.step hget]
  rw [hstep]
  exact ⟨hruns, hglobals, hunits⟩

-- ── `down` around a probe ─────────────────────────────────────────────────────

/-- A service whose port does not answer, on a machine where all else succeeds. -/
def unanswered : Env :=
  { smooth with
    prepared := .ok
      { PreparedService.plain "web" "serve" [] with
        readiness := ⟨.tcp, 30000⟩
        listenPort := some 3000 } }

/-- `up --no-wait`, and then as many steps of the task in front: of the `up`, of the
    readiness task, of the monitor whose checks fail. -/
def failing (steps : Nat) : List Action :=
  .request (.up ⟨"dev", "/app", none, true, false, false⟩)
    :: List.replicate steps (.run 0 unanswered)

/-- `down` while the monitor sleeps: it reads its flag and ends. -/
def downWhileAsleep : List Action :=
  failing 24 ++ [.request (.down "dev-1" false), .run 1 unanswered, .run 0 unanswered]

theorem stopped_acts_no_more_asleep : Along sysStep ActsNoMore start downWhileAsleep :=
  stopped_acts_no_more (by decide)

/-- `down` after the third failed check, from its first step to its last. -/
def downBeforeRestart : List Action :=
  failing 28 ++ .request (.down "dev-1" false) :: List.replicate 8 (.run 1 unanswered)

def webState (runs : BTreeMap RunRecord) : Option ServiceState :=
  ((runs["dev-1"]?).bind (fun r => r.services["web"]?)).map (·.runtime.state)

/-- The monitor goes on and restarts a service of the stopped run. -/
theorem acts_after_down : ¬ ∀ as, Along sysStep ActsNoMore start as := by
  intro h
  have hlast := ((along_append sysStep ActsNoMore start downBeforeRestart [.run 0 unanswered]).mp
    (h (downBeforeRestart ++ [.run 0 unanswered]))).2.1
  have hacts : ((run sysStep start downBeforeRestart).2[0]?).bind actsFor = some 0 := by decide
  have hstopped : webState (run sysStep start downBeforeRestart).1.runs = some .stopped := by
    decide
  have hstarting : webState (sysStep (run sysStep start downBeforeRestart)
      (.run 0 unanswered)).1.runs = some .starting := by
    decide
  obtain ⟨t, hget, ht⟩ := Option.bind_eq_some_iff.mp hacts
  obtain ⟨hruns, -⟩ := hlast 0 unanswered t 0 rfl hget ht (by decide)
  rw [hruns, hstopped] at hstarting
  exact absurd hstarting (by decide)

end DevstackStoppedHandles
