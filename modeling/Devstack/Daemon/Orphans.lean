import Devstack.Daemon.Effects
import Devstack.Daemon.System

/-! # Orphans — services left `Starting` with nothing to end it

    A service, or a global, is `Starting` from the moment its launch begins until
    the result of its readiness wait is written.  The task that began the launch
    carries it until then (`carries`), so a `Starting` service that no task
    carries stays `Starting`, and `service_needs_restart` takes it for unchanged
    (`orphan_unchanged`).

    Three things make one: a step gives up the launch it carries (`givesUp`), a
    status request writes an old `Starting` back (`revives`), the daemon restarts
    and restores one (`RestoresStarting`).  `no_orphan_iff`: nothing else does. -/

namespace DevstackOrphans

open DevstackModel DevstackStores DevstackHealth DevstackConfig DevstackLaunch DevstackStatus
open DevstackLocked DevstackWorld DevstackTasks DevstackEffects DevstackSystem
open DevstackInterleaving DevstackMachine

/-- The service, or the global, is `Starting`. -/
def StartingIn (w : World) (key : Key) : Prop :=
  (w.standing key).map (·.1) = some .starting

instance (w : World) (key : Key) : Decidable (StartingIn w key) :=
  inferInstanceAs (Decidable ((w.standing key).map (·.1) = some .starting))

/-- Some task carries a launch of `key`. -/
def Carried (ts : List Task) (key : Key) : Prop :=
  ∃ t ∈ ts, key ∈ (carries t).map (·.1)

instance (ts : List Task) (key : Key) : Decidable (Carried ts key) :=
  inferInstanceAs (Decidable (∃ t ∈ ts, key ∈ (carries t).map (·.1)))

/-- Whatever is `Starting` has a task that will make it `Ready` or `Failed`. -/
def NoOrphan (s : Sys) : Prop := ∀ key, StartingIn s.1 key → Carried s.2 key

/-! ## What gives up, revives or restores -/

/-- The launch a task gives up when the call of its next step fails. -/
def givesUp (env : Env) : Task → Option Key
  | .loadPostInit r =>
      match env.loadPostInit with
      | .error _ => some (.service r.run r.service)
      | .ok _ => none
  | .restartUnit r =>
      match env.unit with
      | .error _ => some (.service r.run r.service)
      | .ok _ => none
  | .writeGlobalRestart _ t _ _ =>
      match env.writeManifest with
      | .error _ => some (.global t.key)
      | .ok _ => none
  | .restartGlobalUnit t _ _ =>
      match env.unit with
      | .error _ => some (.global t.key)
      | .ok _ => none
  | _ => none

/-- A service the next step of a status request writes `Starting`: it was so in
    the request's copy of the run, and the unit-status rule leaves it so. -/
def Revives (env : Env) : Task → Key → Prop
  | .writeStatus run copy _, .service r name =>
      r = run ∧ ∃ old, copy.services[name]? = some old
        ∧ (unitRule copy.state (env.unitStatus old.launch.unitName) (standing old)).1 = .starting
  | _, _ => False

/-- A manifest is restored with something that was `Starting`. -/
def RestoresStarting (answers : RestoreAnswers) (w : World) : Prop :=
  (∃ (runId : String) (manifest : PersistedRun) (prepared : String → Option PreparedService)
      (name : String) (saved : PersistedService), w.manifests[runId]? = some manifest
      ∧ runManifestIsRestorable answers.pathExists manifest = true
      ∧ answers.runPrepared manifest.runId = some prepared
      ∧ manifest.services[name]? = some saved ∧ (prepared name).isSome ∧ saved.state = .starting)
  ∨ (∃ (key : String) (manifest : PersistedGlobal), w.globalManifests[key]? = some manifest
      ∧ globalManifestIsRestorable answers.pathExists manifest = true
      ∧ (answers.globalPrepared manifest.key).isSome ∧ manifest.service.state = .starting)

/-- A step that makes no orphan: a launch that is given up is carried by another
    task, or its service is not `Starting` any more; a status request writes
    `Starting` only where a task carries a launch; the daemon restores nothing
    `Starting`. -/
def Settled (s : Sys) : Action → Prop
  | .request _ => True
  | .run position env =>
      ∀ t ∈ s.2[position]?,
        (∀ key ∈ givesUp env t, StartingIn s.1 key → Carried (s.2.eraseIdx position) key)
        ∧ (∀ key, Revives env t key → (s.1.standing key).isSome → Carried s.2 key)
  | .daemonRestart answers => ¬ RestoresStarting answers s.1

/-! ## Who writes `Starting` -/

/-- The operations that may write `Starting`. -/
def mayStart : RunOp → Bool
  | .beginRestart .. | .reconcile .. => true
  | .store _ record => decide (record.runtime.state = .starting)
  | _ => false

/-- The operations on a global that write `Starting`. -/
def startsGlobal : GlobalOp → Bool
  | .beginRestart _ => true
  | _ => false

theorem transitionStanding_starting {change : Transition} {s : Standing}
    (h : (transitionStanding change s).1 = .starting) : s.1 = .starting := by
  cases change with
  | healthy => exact h
  | recoverToReady =>
      simp only [transitionStanding] at h
      split at h
      · exact nomatch h
      · exact h
  | markDegraded =>
      simp only [transitionStanding] at h
      split at h
      · exact nomatch h
      · exact h

/-- An operation that is none of those leaves nothing newly `Starting`. -/
theorem standingAfter_starting {op : RunOp} (hop : mayStart op = false) (run : RunRecord)
    (service : String)
    (h : (op.standingAfter run service).map (·.1) = some .starting) :
    (standingIn run service).map (·.1) = some .starting := by
  -- an operation on one service, by what it leaves
  have hnamed : ∀ (name : String) (leaves : Standing → Standing),
      (∀ s : Standing, (leaves s).1 = .starting → s.1 = .starting) →
      ((if service = name then (standingIn run service).map leaves
          else standingIn run service).map (·.1)) = some .starting →
      (standingIn run service).map (·.1) = some .starting := by
    intro name leaves hleaves h
    split at h
    · rw [Option.map_map, Option.map_eq_some_iff] at h
      obtain ⟨s, hs, hstate⟩ := h
      rw [hs]
      exact congrArg some (hleaves s hstate)
    · exact h
  cases op with
  | beginRestart name now => cases hop
  | store name record =>
      simp only [RunOp.standingAfter] at h
      split at h
      · exact absurd (Option.some.inj h) (of_decide_eq_false hop)
      · exact h
  | reconcile status => cases hop
  | markReady name now fresh =>
      exact hnamed name (fun _ => (.ready, none)) (fun _ h => ServiceState.noConfusion h) h
  | markFailed name now reason =>
      exact hnamed name (fun _ => (.failed, some reason)) (fun _ h => ServiceState.noConfusion h) h
  | transition name now change => exact hnamed name _ (fun _ h => transitionStanding_starting h) h
  | restarted name now | compareHash name hash | syncWatcher name | keepWatcher name fresh
  | syncCapture name | keepCapture name fresh | applyPrepared name prepared =>
      exact hnamed name _ (fun _ h => h) h
  | removeMissing removed =>
      simp only [RunOp.standingAfter] at h
      split at h
      · cases h
      · exact h
  | stopAll now =>
      simp only [RunOp.standingAfter, Option.map_map, Option.map_eq_some_iff] at h
      obtain ⟨s, -, hstate⟩ := h
      cases hstate
  | setWatchPaused name value | updateResources baseEnv | recompute | stopHandles => exact h

/-- Nothing becomes `Starting`. -/
def KeepsOff (w w' : World) : Prop := ∀ key, StartingIn w' key → StartingIn w key

section KeepsOff

variable (w : World)

theorem keepsOff_refl : KeepsOff w w := fun _ h => h

theorem keepsOff_of_standing {w' w'' : World} (h : KeepsOff w w')
    (hsame : ∀ key, w''.standing key = w'.standing key) : KeepsOff w w'' := by
  intro key hkey
  rw [StartingIn, hsame] at hkey
  exact h key hkey

theorem keepsOff_lock {op : RunOp} (hop : mayStart op = false) (runId : String) :
    KeepsOff w (w.lock runId op) := by
  intro key h
  rw [StartingIn, standing_lock] at h
  cases key with
  | global key => exact h
  | service run service =>
      simp only at h
      split at h
      · next heq =>
          subst heq
          cases hget : w.runs[run]? with
          | none => rw [hget] at h; exact nomatch h
          | some record =>
              rw [hget] at h
              have hbefore := standingAfter_starting hop record service h
              rw [StartingIn, World.standing, hget]
              exact hbefore
      · exact h

theorem keepsOff_lockGlobal {op : GlobalOp} (hop : startsGlobal op = false) (name : String)
 : KeepsOff w (w.lockGlobal name op) := by
  intro key h
  rw [StartingIn, standing_lockGlobal] at h
  split at h
  · rw [Option.map_map, Option.map_eq_some_iff] at h
    obtain ⟨s, hs, hstate⟩ := h
    rw [StartingIn, hs]
    cases op with
    | beginRestart now => exact nomatch hop
    | markReady => exact nomatch hstate
    | markFailed reason => exact nomatch hstate
    | compareHash hash | syncWatcher | keepWatcher fresh => exact congrArg some hstate
  · exact h

theorem keepsOff_upsertGlobal {global : GlobalRecord}
    (hglobal : global.service.runtime.state ≠ .starting) :
    KeepsOff w (w.upsertGlobal global) := by
  intro key h
  rw [StartingIn, standing_upsertGlobal] at h
  split at h
  · exact absurd (Option.some.inj h) hglobal
  · exact h

/-- Runs that are removed take their services with them. -/
theorem keepsOff_removeRuns {w' : World} (hglobals : w'.globals = w.globals)
    (hruns : ∀ (run : String) (record : RunRecord), w'.runs[run]? = some record →
      w.runs[run]? = some record) : KeepsOff w w' := by
  intro key h
  cases key with
  | global key =>
      rw [StartingIn, World.standing, hglobals] at h
      exact h
  | service run service =>
      rw [StartingIn, World.standing] at h
      cases hget : w'.runs[run]? with
      | none => rw [hget] at h; cases h
      | some record =>
          rw [StartingIn, World.standing, hruns run record hget]
          rw [hget] at h
          exact h

/-- A run that is stored without services has none that is `Starting`. -/
theorem keepsOff_createRun {run : RunRecord} (hempty : run.services = ∅) :
    KeepsOff w (w.createRun run) := by
  intro key h
  cases key with
  | global key => exact h
  | service id service =>
      simp only [StartingIn, World.standing, World.createRun,
        Std.ExtTreeMap.getElem?_insert] at h
      split at h
      · simp [standingIn, hempty] at h
      · exact h

end KeepsOff

theorem startedGlobal_state (env : Env) (target : GlobalTarget) (prepared : PreparedService)
    (createdAt : String) (start : Except String Unit) :
    (startedGlobal env target prepared createdAt start).1.service.runtime.state ≠ .starting := by
  simp only [startedGlobal]
  split <;> simp [buildGlobalRecord]

/-- The tasks whose next step may write `Starting`. -/
def starter : Task → Bool
  | .restart .. | .restartGlobal _ | .storeResult _ _ _ (.ok _) .. | .writeStatus .. => true
  | _ => false

/-- An access that writes `Starting` nowhere. -/
def startsNone : Effect → Prop
  | .lock _ op => mayStart op = false
  | .lockGlobal _ op => startsGlobal op = false
  | .upsertGlobal global => global.service.runtime.state ≠ .starting
  | .createRun run => run.services = ∅
  | _ => True

theorem keepsOff_apply (w : World) {e : Effect} (h : startsNone e) : KeepsOff w (e.apply w) := by
  cases e with
  | lock run op => exact keepsOff_lock w h run
  | lockGlobal key op => exact keepsOff_lockGlobal w h key
  | upsertGlobal global => exact keepsOff_upsertGlobal w h
  | createRun run => exact keepsOff_createRun w h
  | purge run =>
      refine keepsOff_removeRuns w rfl (fun r record hget => ?_)
      simp only [Effect.apply, Std.ExtTreeMap.getElem?_erase] at hget
      split at hget
      · cases hget
      · exact hget
  | collect expired =>
      refine keepsOff_removeRuns w rfl (fun r record hget => ?_)
      simp only [Effect.apply, Std.ExtTreeMap.getElem?_filter] at hget
      exact (Option.pfilter_eq_some_iff.mp hget).1
  | writeManifest manifest | writeGlobalManifest manifest | serve =>
      exact keepsOff_of_standing w (keepsOff_refl w) (by intro key; cases key <;> rfl)
  | raise handle | storePaused handle value | allocate | unit action owner unitName
  | beginLaunch key =>
      exact keepsOff_of_standing w (keepsOff_refl w) (by simp [Effect.apply])

theorem keepsOff_effects {es : List Effect} (h : ∀ e ∈ es, startsNone e) (w : World) :
    KeepsOff w (es.foldl Effect.apply w) := by
  induction es generalizing w with
  | nil => exact keepsOff_refl w
  | cons e es ih =>
      intro key hkey
      refine keepsOff_apply w (h e List.mem_cons_self) key ?_
      exact ih (fun e' he' => h e' (List.mem_cons_of_mem _ he')) _ key hkey

theorem startsNone_deliver {w : World} {run service now : String} {result : Except String Unit}
    {e : Effect} (h : e ∈ deliverEffects w run service now result) : startsNone e := by
  rcases mem_deliver h with ⟨handle, rfl⟩ | ⟨reason, rfl⟩ | rfl <;> trivial

/-- What the other tasks do. -/
theorem startsNone_of_makes {env : Env} {w : World} {t : Task} {e : Effect}
    (ht : starter t = false) (h : Makes env w t e) : startsNone e := by
  cases h with
  | restart run service noWait caller => exact nomatch ht
  | restartGlobal t => exact nomatch ht
  | writeStatus run copy k => exact nomatch ht
  | storeResult job prepared launch start name rest =>
      cases start with
      | ok _ => exact nomatch ht
      | error err => rfl
  | aside t haside =>
      cases e <;> trivial
  | waitRestart r hmem => exact startsNone_deliver hmem
  | waitReadiness run service launch hmem => exact startsNone_deliver hmem
  | handleReadiness job launch name rest hmem => exact startsNone_deliver hmem
  | checkGlobal target existing rest caller prepared =>
      simp [startsNone, activeGlobal, buildGlobalRecord]
  | waitGlobal target prepared createdAt launch start rest caller =>
      exact startedGlobal_state env target prepared createdAt start
  | _ => trivial

/-- The next step of any other task makes nothing `Starting`. -/
theorem keepsOff_step (env : Env) (w : World) {t : Task} (ht : starter t = false) :
    KeepsOff w (t.step env w).1 := by
  rw [step_world]
  exact keepsOff_effects (fun e he => startsNone_of_makes ht (makes_of_mem he)) w

/-- A locked step on one service leaves the others. -/
theorem starting_lock_other {w : World} {runId name : String} {op : RunOp} {key : Key}
    (hop : ∀ run service, service ≠ name → op.standingAfter run service = standingIn run service)
    (hne : key ≠ .service runId name) (h : StartingIn (w.lock runId op) key) :
    StartingIn w key := by
  rw [StartingIn, standing_lock] at h
  cases key with
  | global key => exact h
  | service run service =>
      simp only at h
      split at h
      · next heq =>
          subst heq
          have hservice : service ≠ name := fun heq => hne (heq ▸ rfl)
          rw [StartingIn, World.standing]
          cases hget : w.runs[run]? with
          | none => rw [hget] at h; cases h
          | some record =>
              rw [hget] at h
              simp only [Option.bind_some, hop record service hservice] at h
              exact h
      · exact h

/-- **WHO MAKES A SERVICE `Starting`**: a task that then carries its launch, or a
    status request that revives it. -/
theorem starting_step (env : Env) (w : World) (t : Task) {key : Key}
    (h : StartingIn (t.step env w).1 key) :
    StartingIn w key ∨ Carried (t.step env w).2 key
      ∨ (Revives env t key ∧ (w.standing key).isSome) := by
  cases hstarter : starter t with
  | false => exact Or.inl (keepsOff_step env w hstarter key h)
  | true =>
      cases t with
      | restart run service noWait caller =>
          by_cases hkey : key = .service run service
          · subst hkey
            simp only [Task.step] at h ⊢
            split
            · next hrun => simp only [hrun] at h; exact Or.inl h
            · next record hrun =>
                split
                · next hs => simp only [hrun, hs] at h; exact Or.inl h
                · exact Or.inr (Or.inl ⟨_, List.mem_singleton_self _, List.mem_singleton_self _⟩)
          · refine Or.inl ?_
            have hother : ∀ record s, s ≠ service →
                (RunOp.beginRestart service env.now).standingAfter record s
                  = standingIn record s := fun _ _ hne => if_neg hne
            simp only [Task.step] at h
            split at h
            · exact h
            · split at h
              · exact h
              · rw [StartingIn, standing_beginLaunch] at h
                exact starting_lock_other hother hkey h
      | restartGlobal t =>
          by_cases hkey : key = .global t.key
          · subst hkey
            simp only [Task.step] at h ⊢
            split
            · next hglobal => simp only [hglobal] at h; exact Or.inl h
            · exact Or.inr (Or.inl ⟨_, List.mem_singleton_self _, List.mem_singleton_self _⟩)
          · refine Or.inl ?_
            simp only [Task.step] at h
            split at h
            · exact h
            · rw [StartingIn, standing_beginLaunch, standing_lockGlobal, if_neg hkey] at h
              exact h
      | storeResult job prepared launch start name rest =>
          cases start with
          | error err => cases hstarter
          | ok u =>
              by_cases hkey : key = .service job.runId name
              · subst hkey
                simp only [Task.step] at h ⊢
                split
                · next hrun => simp only [hrun] at h; exact Or.inl h
                · exact Or.inr (Or.inl ⟨_, List.mem_singleton_self _, List.mem_singleton_self _⟩)
              · refine Or.inl ?_
                have hother : ∀ record s, s ≠ name →
                    (RunOp.store name (launchResultRecord prepared (.ok u) env.now)).standingAfter
                      record s = standingIn record s := fun _ _ hne => if_neg hne
                simp only [Task.step] at h
                split at h
                · exact h
                · exact starting_lock_other hother hkey h
      | writeStatus run copy k =>
          simp only [Task.step] at h
          split at h
          · exact Or.inl h
          · next record hrun =>
              rw [StartingIn, standing_lock] at h
              cases key with
              | global key => exact Or.inl h
              | service r service =>
                  simp only at h
                  split at h
                  · next heq =>
                      subst heq
                      simp only [hrun, Option.bind_some, RunOp.standingAfter, buildStatus_get] at h
                      simp only [StartingIn, World.standing, hrun, Option.bind_some]
                      cases hnow : standingIn record service with
                      | none => rw [hnow] at h; cases h
                      | some now =>
                          rw [hnow] at h
                          cases hold : copy.services[service]? with
                          | none => rw [hold] at h; exact Or.inl h
                          | some old =>
                              rw [hold] at h
                              exact Or.inr (Or.inr
                                ⟨⟨rfl, old, hold, Option.some.inj h⟩, rfl⟩)
                  · exact Or.inl h
      | _ => cases hstarter

/-! ## What becomes of a carried launch -/

/-- A call hands the launch it carries to what it returns to. -/
theorem carried_resume (k : Cont) (result : Except String Unit) {key : Key}
    (hkey : key ∈ (contCarries k).map (·.1)) : Carried (k.resume result) key := by
  cases k with
  | launched job prepared launch start name rest =>
      cases start with
      | ok _ => exact ⟨_, List.mem_singleton_self _, hkey⟩
      | error err => exact nomatch hkey
  | captured job launch name rest =>
      cases result <;> exact ⟨_, List.mem_singleton_self _, hkey⟩
  | _ => exact nomatch hkey

section Ends

variable (w : World)

theorem not_starting_absent {run : String} (hrun : w.runs[run]? = none) (service : String) :
    ¬ StartingIn w (.service run service) := by
  rw [StartingIn, World.standing, hrun]
  exact fun h => by cases h

/-- An operation that leaves its service in another state ends its `Starting`. -/
theorem not_starting_lock {run service : String} {op : RunOp} {s : Standing}
    (hop : ∀ record, op.standingAfter record service
      = (standingIn record service).map (fun _ => s) ∨ op.standingAfter record service = some s)
    (hs : s.1 ≠ .starting) : ¬ StartingIn (w.lock run op) (.service run service) := by
  intro h
  rw [StartingIn, standing_lock] at h
  simp only [if_true] at h
  cases hget : w.runs[run]? with
  | none => rw [hget] at h; exact nomatch h
  | some record =>
      rw [hget] at h
      simp only [Option.bind_some] at h
      rcases hop record with hleaves | hleaves
      · rw [hleaves, Option.map_map, Option.map_eq_some_iff] at h
        obtain ⟨_, _, hstate⟩ := h
        exact hs hstate
      · rw [hleaves] at h
        exact hs (Option.some.inj h)

/-- The result of a readiness wait ends it. -/
theorem not_starting_deliver (run service now : String) (result : Except String Unit) :
    ¬ StartingIn (deliver w run service now result).1 (.service run service) := by
  cases result with
  | error reason => exact not_starting_lock w (fun _ => Or.inl (if_pos rfl)) (fun h => nomatch h)
  | ok _ =>
      have hmark : ¬ StartingIn (w.lock run (.markReady service now w.nextHandle))
          (.service run service) :=
        not_starting_lock w (fun _ => Or.inl (if_pos rfl)) (fun h => nomatch h)
      simp only [deliver, markReadyStep]
      split
      · split
        · rw [StartingIn, standing_allocate]
          exact hmark
        · exact hmark
      · exact hmark

end Ends

/-- What becomes of a carried launch: it is carried on, or has ended, or is given up. -/
def Goes (env : Env) (w : World) (t : Task) (key : Key) : Prop :=
  Carried (t.step env w).2 key ∨ ¬ StartingIn (t.step env w).1 key ∨ givesUp env t = some key

section Carried

variable (env : Env) (w : World) {t : Task} {key : Key}

/-- `app/runtime.rs`. -/
theorem carried_manifests (hf : t.family = .manifests) (hkey : key ∈ (carries t).map (·.1)) :
    Goes env w t key := by
  rw [Goes]
  cases t with
  | persist run k =>
      simp only [Task.step]
      split
      · exact Or.inl ⟨_, List.mem_singleton_self _, hkey⟩
      · exact Or.inl (carried_resume k _ hkey)
  | write manifest k =>
      simp only [Task.step]
      split <;> exact Or.inl (carried_resume k _ hkey)
  | persistGlobal name k =>
      simp only [Task.step]
      split
      · exact Or.inl ⟨_, List.mem_singleton_self _, hkey⟩
      · exact Or.inl (carried_resume k _ hkey)
  | writeGlobal manifest k =>
      simp only [Task.step]
      split <;> exact Or.inl (carried_resume k _ hkey)
  | _ => cases hf

/-- `launch/watch.rs`. -/
theorem carried_watch (hf : t.family = .watch) (hkey : key ∈ (carries t).map (·.1)) :
    Goes env w t key := by
  rw [Goes]
  cases t with
  | syncWatcher run service k =>
      simp only [Task.step]
      split
      · exact Or.inl (carried_resume k _ hkey)
      · split
        · exact Or.inl (carried_resume k _ hkey)
        · exact Or.inl (carried_resume k _ hkey)
        · split
          · exact Or.inl (carried_resume k _ hkey)
          · exact Or.inl ⟨_, List.mem_cons_self, hkey⟩
  | keepWatcher t k =>
      simp only [Task.step]
      split <;> exact Or.inl (carried_resume k _ hkey)
  | syncGlobalWatcher name k =>
      simp only [Task.step]
      split
      · exact Or.inl (carried_resume k _ hkey)
      · split
        · exact Or.inl (carried_resume k _ hkey)
        · exact Or.inl (carried_resume k _ hkey)
        · split
          · exact Or.inl (carried_resume k _ hkey)
          · exact Or.inl ⟨_, List.mem_cons_self, hkey⟩
  | keepGlobalWatcher t k =>
      simp only [Task.step]
      split <;> exact Or.inl (carried_resume k _ hkey)
  | syncCapture run service k =>
      simp only [Task.step]
      split
      · exact Or.inl (carried_resume k _ hkey)
      · split
        · exact Or.inl ⟨_, List.mem_singleton_self _, hkey⟩
        · exact Or.inl (carried_resume k _ hkey)
  | keepCapture run service k =>
      simp only [Task.step]
      split
      · exact Or.inl (carried_resume k _ hkey)
      · exact Or.inl (carried_resume k _ hkey)
      · split <;> exact Or.inl (carried_resume k _ hkey)
  | _ => cases hf <;> cases hkey

/-- `commands/restart.rs`. -/
theorem carried_restart (hf : t.family = .restart) (hkey : key ∈ (carries t).map (·.1)) :
    Goes env w t key := by
  rw [Goes]
  cases t with
  | loadPostInit r =>
      rw [List.mem_singleton.mp hkey]
      simp only [Task.step, givesUp]
      cases env.loadPostInit with
      | error err => exact Or.inr (Or.inr rfl)
      | ok _ =>
          exact Or.inl ⟨_, List.mem_singleton_self _, List.mem_singleton_self _⟩
  | restartUnit r =>
      rw [List.mem_singleton.mp hkey]
      simp only [Task.step, givesUp]
      cases env.unit with
      | error err => exact Or.inr (Or.inr rfl)
      | ok _ =>
          exact Or.inl ⟨_, List.mem_singleton_self _, List.mem_singleton_self _⟩
  | restarted r =>
      refine Or.inl ?_
      simp only [Task.step]
      split
      · exact ⟨_, List.mem_cons_of_mem _ (List.mem_singleton_self _), hkey⟩
      · exact ⟨_, List.mem_singleton_self _, hkey⟩
  | waitRestart r =>
      rw [List.mem_singleton.mp hkey]
      refine Or.inr (Or.inl ?_)
      simp only [Task.step]
      split
      · next hrun => exact not_starting_absent w hrun r.service
      · exact not_starting_deliver w _ _ _ _
  | _ => cases hf <;> cases hkey

/-- `launch/readiness.rs`. -/
theorem carried_readiness (hf : t.family = .readiness) (hkey : key ∈ (carries t).map (·.1)) :
    Goes env w t key := by
  rw [Goes]
  cases t with
  | waitReadiness run service launch =>
      rw [List.mem_singleton.mp hkey]
      exact Or.inr (Or.inl (not_starting_deliver w _ _ _ _))
  | _ => cases hf <;> cases hkey

/-- `commands/reconcile.rs`. -/
theorem carried_reconcile (hf : t.family = .reconcile) (hkey : key ∈ (carries t).map (·.1)) :
    Goes env w t key := by
  rw [Goes]
  cases t with
  | status run k =>
      simp only [Task.step]
      split
      · exact Or.inl (carried_resume k _ hkey)
      · exact Or.inl ⟨_, List.mem_singleton_self _, hkey⟩
  | writeStatus run copy k =>
      simp only [Task.step]
      split
      · exact Or.inl (carried_resume k _ hkey)
      · split
        · exact Or.inl ⟨_, List.mem_singleton_self _, hkey⟩
        · exact Or.inl (carried_resume k _ hkey)
  | _ => cases hf <;> cases hkey

/-- `commands/ensure_globals.rs`. -/
theorem carried_globals (hf : t.family = .globals) (hkey : key ∈ (carries t).map (·.1)) :
    Goes env w t key := by
  rw [Goes]
  cases t with
  | waitGlobal target prepared createdAt launch start rest caller =>
      rw [List.mem_singleton.mp hkey]
      refine Or.inr (Or.inl fun h => ?_)
      have hglobal : (startedGlobal env target prepared createdAt start).1.key = target.key := by
        simp only [startedGlobal]
        split <;> rfl
      simp only [Task.step] at h
      rw [StartingIn, standing_upsertGlobal, hglobal, if_pos rfl] at h
      exact startedGlobal_state env target prepared createdAt start (Option.some.inj h)
  | persistGlobalRestart t unitName launch =>
      rw [List.mem_singleton.mp hkey]
      simp only [Task.step]
      split
      · exact Or.inl ⟨_, List.mem_singleton_self _, List.mem_singleton_self _⟩
      · next hglobal =>
          refine Or.inr (Or.inl fun h => ?_)
          rw [StartingIn, World.standing, hglobal] at h
          cases h
  | writeGlobalRestart manifest t unitName launch =>
      rw [List.mem_singleton.mp hkey]
      simp only [Task.step, givesUp]
      cases env.writeManifest with
      | error err => exact Or.inr (Or.inr rfl)
      | ok _ =>
          exact Or.inl ⟨_, List.mem_singleton_self _, List.mem_singleton_self _⟩
  | restartGlobalUnit t unitName launch =>
      rw [List.mem_singleton.mp hkey]
      simp only [Task.step, givesUp]
      cases env.unit with
      | error err => exact Or.inr (Or.inr rfl)
      | ok _ =>
          exact Or.inl ⟨_, List.mem_cons_of_mem _ (List.mem_singleton_self _),
          List.mem_singleton_self _⟩
  | waitGlobalRestart name launch =>
      rw [List.mem_singleton.mp hkey]
      refine Or.inr (Or.inl fun h => ?_)
      simp only [Task.step] at h
      rw [StartingIn, standing_lockGlobal, if_pos rfl, Option.map_map,
        Option.map_eq_some_iff] at h
      obtain ⟨_, _, hstate⟩ := h
      cases hready : env.readiness with
      | ok _ => rw [hready] at hstate; cases hstate
      | error reason => rw [hready] at hstate; cases hstate
  | _ => cases hf <;> cases hkey

/-- `up` and `refresh_run`, from the first launch on. -/
theorem carried_launching (hf : t.family = .launching) (hkey : key ∈ (carries t).map (·.1)) :
    Goes env w t key := by
  rw [Goes]
  cases t with
  | storeResult job prepared launch start name rest =>
      rw [List.mem_singleton.mp hkey]
      simp only [Task.step]
      split
      · next hrun => exact Or.inr (Or.inl (not_starting_absent w hrun name))
      · cases start with
        | ok _ => exact Or.inl ⟨_, List.mem_singleton_self _, List.mem_singleton_self _⟩
        | error err =>
            refine Or.inr (Or.inl (not_starting_lock w (fun _ => Or.inr (if_pos rfl)) ?_))
            exact fun h => by cases h
  | proxyFailed job launch name reason =>
      rw [List.mem_singleton.mp hkey]
      refine Or.inr (Or.inl ?_)
      simp only [Task.step]
      split
      · next hrun => exact not_starting_absent w hrun name
      · exact not_starting_lock w (fun _ => Or.inl (if_pos rfl)) (fun h => by cases h)
  | handleReadiness job launch name rest =>
      rw [List.mem_singleton.mp hkey]
      simp only [Task.step]
      split
      · exact Or.inl ⟨_, List.mem_cons_of_mem _ (List.mem_singleton_self _),
          List.mem_singleton_self _⟩
      · refine Or.inr (Or.inl ?_)
        split
        · next hrun => exact not_starting_absent w hrun name
        · exact not_starting_deliver w _ _ _ _
  | _ => cases hf <;> cases hkey

/-- **A CARRIED LAUNCH** is carried on, or has ended, or is given up. -/
theorem carried_step (t : Task) (hkey : key ∈ (carries t).map (·.1)) :
    Carried (t.step env w).2 key ∨ ¬ StartingIn (t.step env w).1 key
      ∨ givesUp env t = some key := by
  cases hf : t.family with
  | manifests => exact carried_manifests env w hf hkey
  | watch => exact carried_watch env w hf hkey
  | restart => exact carried_restart env w hf hkey
  | readiness => exact carried_readiness env w hf hkey
  | reconcile => exact carried_reconcile env w hf hkey
  | globals => exact carried_globals env w hf hkey
  | launching => exact carried_launching env w hf hkey
  | opening | stopping | control => cases t <;> cases hf <;> cases hkey

end Carried

/-- A step that gives its launch up leaves the service as it is, and no task that
    carries the launch. -/
theorem givesUp_step (env : Env) (w : World) {t : Task} {key : Key}
    (h : givesUp env t = some key) :
    (t.step env w).1.standing key = w.standing key ∧ ¬ Carried (t.step env w).2 key := by
  have hfree : ∀ ts : List Task, Within [] ts → ¬ Carried ts key := by
    rintro ts hwithin ⟨t', ht', hmem⟩
    obtain ⟨p, hp, -⟩ := List.mem_map.mp hmem
    cases hwithin t' ht' p hp
  cases t with
  | loadPostInit r =>
      simp only [givesUp] at h
      split at h
      · next err herr =>
          simp only [Task.step, herr]
          exact ⟨trivial, hfree _ (within_caller r.caller)⟩
      · cases h
  | restartUnit r =>
      simp only [givesUp] at h
      split at h
      · next err herr =>
          simp only [Task.step, herr, standing_unit]
          exact ⟨trivial, hfree _ (within_caller r.caller)⟩
      · cases h
  | writeGlobalRestart manifest t unitName launch =>
      simp only [givesUp] at h
      split at h
      · next err herr =>
          simp only [Task.step, herr]
          exact ⟨trivial, hfree _ (within_free rfl within_nil)⟩
      · cases h
  | restartGlobalUnit t unitName launch =>
      simp only [givesUp] at h
      split at h
      · next err herr =>
          simp only [Task.step, herr, standing_unit]
          exact ⟨trivial, hfree _ (within_free rfl within_nil)⟩
      · cases h
  | _ => cases h

/-- A status request that revives a service leaves it `Starting`, and carries no
    launch it did not carry before. -/
theorem revives_step {env : Env} {w : World} {t : Task} {key : Key} (h : Revives env t key)
    (hpresent : (w.standing key).isSome) :
    StartingIn (t.step env w).1 key
      ∧ (Carried (t.step env w).2 key → key ∈ (carries t).map (·.1)) := by
  cases t with
  | writeStatus run copy k =>
      cases key with
      | global key => exact absurd h id
      | service r name =>
          obtain ⟨rfl, old, hold, hstate⟩ := h
          refine ⟨?_, ?_⟩
          · obtain ⟨s, hs⟩ := Option.isSome_iff_exists.mp hpresent
            rw [World.standing] at hs
            obtain ⟨record, hrun, hname⟩ := Option.bind_eq_some_iff.mp hs
            simp only [Task.step, hrun]
            rw [StartingIn, standing_lock]
            simp only [if_true, hrun, Option.bind_some, RunOp.standingAfter, hname,
              buildStatus_get, hold, Option.map_some]
            exact congrArg some hstate
          · rintro ⟨t', ht', hmem⟩
            obtain ⟨p, hp, hkey⟩ := List.mem_map.mp hmem
            exact List.mem_map.mpr ⟨p, within_step env w rfl t' ht' p hp, hkey⟩
  | _ => exact absurd h id

/-! ## One step -/

theorem carried_others {ts : List Task} {position : Nat} {t : Task}
    (hget : ts[position]? = some t) {key : Key} :
    Carried ts key ↔ key ∈ (carries t).map (·.1) ∨ Carried (ts.eraseIdx position) key := by
  constructor
  · rintro ⟨t', ht', hkey⟩
    rcases (mem_iff_eraseIdx hget).mp ht' with rfl | hother
    · exact Or.inl hkey
    · exact Or.inr ⟨t', hother, hkey⟩
  · rintro (hkey | ⟨t', ht', hkey⟩)
    · exact ⟨t, List.mem_of_getElem? hget, hkey⟩
    · exact ⟨t', (mem_iff_eraseIdx hget).mpr (Or.inr ht'), hkey⟩

/-- **A STEP OF A TASK MAKES AN ORPHAN** exactly when it gives up a launch of a
    `Starting` service that no other task carries, or revives one. -/
theorem noOrphan_run {s : Sys} (hinv : NoOrphan s) (position : Nat) (env : Env) :
    NoOrphan (sysStep s (.run position env)) ↔ Settled s (.run position env) := by
  show NoOrphan (stepAt Task.step s (position, env)) ↔ _
  cases hget : s.2[position]? with
  | none =>
      rw [stepAt_none Task.step hget, Settled, hget]
      exact ⟨fun _ t ht => (nomatch ht), fun _ => hinv⟩
  | some t =>
      have hworld : (stepAt Task.step s (position, env)).1 = (t.step env s.1).1 := by
        rw [stepAt_some Task.step hget]
      have hcarried : ∀ key, Carried (stepAt Task.step s (position, env)).2 key
          ↔ Carried (t.step env s.1).2 key ∨ Carried (s.2.eraseIdx position) key := by
        intro key
        constructor
        · rintro ⟨t', ht', hkey⟩
          rcases (mem_stepAt_iff Task.step hget).mp ht' with hnext | hother
          · exact Or.inl ⟨t', hnext, hkey⟩
          · exact Or.inr ⟨t', hother, hkey⟩
        · rintro (⟨t', ht', hkey⟩ | ⟨t', ht', hkey⟩)
          · exact ⟨t', (mem_stepAt_iff Task.step hget).mpr (Or.inl ht'), hkey⟩
          · exact ⟨t', (mem_stepAt_iff Task.step hget).mpr (Or.inr ht'), hkey⟩
      constructor
      · intro hafter t' ht'
        obtain rfl : t = t' := Option.some.inj (hget.symm.trans ht')
        refine ⟨fun key hgives hstarting => ?_, fun key hrevives hpresent => ?_⟩
        · obtain ⟨hsame, hfree⟩ := givesUp_step env s.1 hgives
          have hstill : StartingIn (stepAt Task.step s (position, env)).1 key := by
            rw [hworld, StartingIn, hsame]
            exact hstarting
          rcases (hcarried key).mp (hafter key hstill) with hnext | hother
          · exact absurd hnext hfree
          · exact hother
        · obtain ⟨hstarting, hback⟩ := revives_step hrevives hpresent
          rw [← hworld] at hstarting
          refine (carried_others hget).mpr ?_
          rcases (hcarried key).mp (hafter key hstarting) with hnext | hother
          · exact Or.inl (hback hnext)
          · exact Or.inr hother
      · intro hsettled key hstarting
        obtain ⟨hgives, hrevives⟩ := hsettled t hget
        rw [hworld] at hstarting
        rw [hcarried]
        -- a launch carried before the step
        have hkept : (StartingIn s.1 key ∨ ∀ e, givesUp env t ≠ some e) → Carried s.2 key →
            Carried (t.step env s.1).2 key ∨ Carried (s.2.eraseIdx position) key := by
          intro hbefore hcarried
          rcases (carried_others hget).mp hcarried with hkey | hother
          · rcases carried_step env s.1 t hkey with hnext | hends | hgiven
            · exact Or.inl hnext
            · exact absurd hstarting hends
            · rcases hbefore with hbefore | hbefore
              · exact Or.inr (hgives key hgiven hbefore)
              · exact absurd hgiven (hbefore key)
          · exact Or.inr hother
        rcases starting_step env s.1 t hstarting with hbefore | hnext | ⟨hrevived, hpresent⟩
        · exact hkept (Or.inl hbefore) (hinv key hbefore)
        · exact Or.inl hnext
        · refine hkept (Or.inr fun e hgiven => ?_) (hrevives key hrevived hpresent)
          cases t with
          | writeStatus run copy k => exact nomatch hgiven
          | _ => exact absurd hrevived id

/-- The daemon's restart makes an orphan exactly when it restores one: its tasks
    carry no launch. -/
theorem noOrphan_daemonRestart (answers : RestoreAnswers) (w : World) :
    NoOrphan (restartDaemon answers w) ↔ ¬ RestoresStarting answers w := by
  have hfree : ∀ key, ¬ Carried (restartDaemon answers w).2 key := by
    rintro key ⟨t, ht, hkey⟩
    rw [List.mem_singleton.mp ht] at hkey
    cases hkey
  constructor
  · rintro hno (⟨runId, manifest, prepared, name, saved, hmanifest, hrestorable, hprepared,
      hsaved, hsome, hstate⟩ | ⟨key, manifest, hmanifest, hrestorable, hsome, hstate⟩)
    · refine hfree (.service runId name) (hno _ ?_)
      obtain ⟨p, hp⟩ := Option.isSome_iff_exists.mp hsome
      simp [StartingIn, World.standing, restartDaemon, restoreRun, hmanifest, hrestorable,
        hprepared, standingIn, hsaved, hp, standing, restoredService, hstate]
    · refine hfree (.global key) (hno _ ?_)
      obtain ⟨p, hp⟩ := Option.isSome_iff_exists.mp hsome
      simp [StartingIn, World.standing, restartDaemon, restoreGlobal, hmanifest, hrestorable,
        hp, standing, restoredService, hstate]
  · intro hnone key hstarting
    refine absurd ?_ hnone
    cases key with
    | service runId name =>
        simp only [StartingIn, World.standing, restartDaemon, Std.ExtTreeMap.getElem?_filterMap',
          Option.map_eq_some_iff, Option.bind_eq_some_iff] at hstarting
        obtain ⟨s, ⟨run, ⟨manifest, hmanifest, hrun⟩, hs⟩, hstate⟩ := hstarting
        rw [restoreRun] at hrun
        split at hrun
        · next hrestorable =>
            obtain ⟨prepared, hprepared, rfl⟩ := Option.map_eq_some_iff.mp hrun
            simp only [standingIn, Std.ExtTreeMap.getElem?_filterMap', Option.map_eq_some_iff,
              Option.bind_eq_some_iff] at hs
            obtain ⟨record, ⟨saved, hsaved, p, hp, rfl⟩, rfl⟩ := hs
            exact Or.inl ⟨runId, manifest, prepared, name, saved, hmanifest, hrestorable, hprepared,
              hsaved, by rw [hp]; rfl, hstate⟩
        · cases hrun
    | global key =>
        simp only [StartingIn, World.standing, restartDaemon, Std.ExtTreeMap.getElem?_filterMap',
          Option.map_eq_some_iff, Option.bind_eq_some_iff] at hstarting
        obtain ⟨s, ⟨global, ⟨manifest, hmanifest, hglobal⟩, rfl⟩, hstate⟩ := hstarting
        rw [restoreGlobal] at hglobal
        split at hglobal
        · next hrestorable =>
            obtain ⟨p, hp, rfl⟩ := Option.map_eq_some_iff.mp hglobal
            exact Or.inr ⟨key, manifest, hmanifest, hrestorable, by rw [hp]; rfl, hstate⟩
        · cases hglobal

/-! ## Whole runs -/

theorem noOrphan_start : NoOrphan start := fun key h => by
  cases key with
  | service run service => exact nomatch h
  | global key => exact nomatch h

theorem noOrphan_request {s : Sys} (hinv : NoOrphan s) (r : Request) :
    NoOrphan (sysStep s (.request r)) := by
  simp only [sysStep]
  split
  · intro key hstarting
    obtain ⟨t, ht, hkey⟩ := hinv key hstarting
    exact ⟨t, List.mem_append_left _ ht, hkey⟩
  · exact hinv

theorem noOrphan_step {s : Sys} (a : Action) (hinv : NoOrphan s) :
    NoOrphan (sysStep s a) ↔ Settled s a := by
  cases a with
  | request r => exact ⟨fun _ => trivial, fun _ => noOrphan_request hinv r⟩
  | run position env => exact noOrphan_run hinv position env
  | daemonRestart answers => exact noOrphan_daemonRestart answers s.1

/-- **NO SERVICE IS LEFT `Starting`** in any state of a run of the daemon, exactly
    when every step of it is settled. -/
theorem no_orphan_iff (acts : List Action) :
    Along sysStep (fun s a => NoOrphan (sysStep s a)) start acts
      ↔ Along sysStep Settled start acts := by
  have hstep : ∀ s a, NoOrphan s → (NoOrphan (sysStep s a) ↔ Settled s a) :=
    fun _ a hinv => noOrphan_step a hinv
  exact along_congr sysStep hstep (fun _ _ _ hnext => hnext) acts start noOrphan_start

/-- What a `Starting` service meets at the next `up`: with the same watch hash it
    counts as unchanged. -/
theorem orphan_unchanged {run : RunRecord} {name : String} {record : ServiceRecord}
    {prepared : PreparedService} (hrecord : run.services[name]? = some record)
    (hstate : record.runtime.state = .starting)
    (hhash : record.launch.watchHash = prepared.watchHash) :
    serviceNeedsRestart false (existingServices run) name prepared = false := by
  rw [serviceNeedsRestart, existingServices_get, hrecord]
  simp [ExistingServiceSnapshot.of, hstate, hhash]

/-- `restart-service` of a `Ready` service whose snapshot does not load. -/
def failedReload : List Action :=
  upWeb ++ List.replicate 3 (.run 0 smooth)
    ++ [.request (.restartService "dev-1" "web" true), .run 1 smooth]

/-- The service stays `Starting`, and nothing is left to change it. -/
theorem orphan_after_failed_reload :
    ¬ Along sysStep (fun s a => NoOrphan (sysStep s a)) start
      (failedReload ++ [.run 1 { smooth with loadPostInit := .error "no snapshot" }]) := by
  intro h
  have hlast := ((along_append sysStep _ start failedReload _).mp h).2.1
  have hstarting : StartingIn (sysStep (run sysStep start failedReload)
      (.run 1 { smooth with loadPostInit := .error "no snapshot" })).1
      (.service "dev-1" "web") := by decide
  have hcarried := hlast (.service "dev-1" "web") hstarting
  revert hcarried
  decide

end DevstackOrphans
