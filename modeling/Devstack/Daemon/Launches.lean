import Devstack.Daemon.System

/-! # Launches — whose result a readiness wait writes

    Readiness tasks know their service by name only.  A task that began a launch
    carries its number to the point where the result is written; the result
    belongs to its launch when no later launch of the service has begun by then.

    The invariant is `CarriesCurrent`: every launch still carried is the newest of
    its service.  A step keeps it when it begins a launch of a service that no
    task carries an earlier launch of. -/

namespace DevstackLaunches

open DevstackModel DevstackLocked DevstackWorld DevstackTasks DevstackSystem
open DevstackInterleaving DevstackMachine

/-- The launch whose readiness result the next step of a task writes. -/
def delivers : Task → Option (Key × Nat)
  | .waitReadiness run service launch => some (.service run service, launch)
  | .waitRestart r => some (.service r.run r.service, r.launch)
  | .handleReadiness job launch name _ =>
      if job.noWait then none else some (.service job.runId name, launch)
  | .waitGlobal target _ _ launch (.ok _) _ _ => some (.global target.key, launch)
  | .waitGlobalRestart key launch => some (.global key, launch)
  | _ => none

/-- A result of a launch that is not the newest leaves its service as it is. -/
def ResultCurrent (s : Sys) : Action → Prop
  | .run position env =>
      ∀ t key launch, s.2[position]? = some t → delivers t = some (key, launch) →
        launch < s.1.launches key →
          (sysStep s (.run position env)).1.standing key = s.1.standing key
  | _ => True

/-- A launch begins when no task carries an earlier launch of its service. -/
def LaunchAlone (s : Sys) : Action → Prop
  | .run position _ =>
      ∀ t ∈ s.2[position]?, ∀ key ∈ begins s.1 t, ∀ t' ∈ s.2, ∀ p ∈ carries t', p.1 ≠ key
  | _ => True

instance (s : Sys) : ∀ a, Decidable (LaunchAlone s a)
  | .run position _ =>
      inferInstanceAs (Decidable (∀ t ∈ s.2[position]?, ∀ key ∈ begins s.1 t,
        ∀ t' ∈ s.2, ∀ p ∈ carries t', p.1 ≠ key))
  | .request _ => .isTrue trivial
  | .daemonRestart _ => .isTrue trivial

/-- Every launch still carried is the newest of its service. -/
def CarriesCurrent (s : Sys) : Prop :=
  ∀ t ∈ s.2, ∀ p ∈ carries t, p.2 = s.1.launches p.1

/-- A result is carried until it is written. -/
theorem delivers_carries {t : Task} {p : Key × Nat} (h : delivers t = some p) :
    p ∈ carries t := by
  cases t with
  | waitReadiness run service launch => cases h; exact List.mem_cons_self
  | waitRestart r => cases h; exact List.mem_cons_self
  | handleReadiness job launch name rest =>
      simp only [delivers] at h
      split at h
      · exact nomatch h
      · cases h; exact List.mem_cons_self
  | waitGlobal target prepared createdAt launch start rest k =>
      cases start with
      | ok _ => cases h; exact List.mem_cons_self
      | error err => exact nomatch h
  | waitGlobalRestart key launch => cases h; exact List.mem_cons_self
  | _ => exact nomatch h

/-- A request starts as a task that carries nothing. -/
theorem request_carries (r : Request) : carries r.task = [] := by
  cases r <;> rfl

/-- What a step carries is current when the launch it begins is alone. -/
theorem carriesCurrent_run {s : Sys} {position : Nat} {env : Env} (hinv : CarriesCurrent s)
    (halone : LaunchAlone s (.run position env)) :
    CarriesCurrent (sysStep s (.run position env)) := by
  show CarriesCurrent (stepAt Task.step s (position, env))
  cases hget : s.2[position]? with
  | none => rw [stepAt_none Task.step hget]; exact hinv
  | some t =>
      have hworld : (stepAt Task.step s (position, env)).1 = (t.step env s.1).1 := by
        rw [stepAt_some Task.step hget]
      -- a launch carried before the step is not the one the step begins
      have hold : ∀ t' ∈ s.2, ∀ p ∈ carries t', p.2 = (t.step env s.1).1.launches p.1 := by
        intro t' ht' p hp
        have hne : begins s.1 t ≠ some p.1 := fun hbegins =>
          halone t hget p.1 hbegins t' ht' p hp rfl
        rw [launches_step, if_neg hne]
        exact hinv t' ht' p hp
      intro t' ht' p hp
      rw [hworld]
      rcases mem_stepAt Task.step hget ht' with hnext | hother
      · rcases carries_step env s.1 t t' hnext p hp with hp | ⟨-, hp⟩
        · exact hold t (List.mem_of_getElem? hget) p hp
        · exact hp
      · exact hold t' hother p hp

theorem carriesCurrent_step (s : Sys) (a : Action) (hinv : CarriesCurrent s)
    (halone : LaunchAlone s a) : CarriesCurrent (sysStep s a) := by
  cases a with
  | run position env => exact carriesCurrent_run hinv halone
  | request r =>
      simp only [sysStep]
      split
      · intro t ht p hp
        rcases List.mem_append.mp ht with ht | ht
        · exact hinv t ht p hp
        · rw [List.mem_singleton.mp ht, request_carries] at hp
          exact nomatch hp
      · exact hinv
  | daemonRestart answers =>
      intro t ht p hp
      rw [List.mem_singleton.mp ht] at hp
      exact nomatch hp

theorem carriesCurrent_start : CarriesCurrent start := fun _ ht => (nomatch ht)

/-- With every carried launch the newest, no result is late. -/
theorem resultCurrent_of_carriesCurrent (s : Sys) (a : Action) (hinv : CarriesCurrent s) :
    ResultCurrent s a := by
  cases a with
  | run position env =>
      intro t key launch hget hdelivers hlate
      have hcurrent := hinv t (List.mem_of_getElem? hget) _ (delivers_carries hdelivers)
      exact absurd hcurrent (Nat.ne_of_lt hlate)
  | request r => trivial
  | daemonRestart answers => trivial

/-- **A READINESS RESULT BELONGS TO ITS LAUNCH** in every run of the daemon whose
    launches of one service do not overlap. -/
theorem results_current {acts : List Action} (halone : Along sysStep LaunchAlone start acts) :
    Along sysStep ResultCurrent start acts :=
  along_of_guarded sysStep carriesCurrent_step
    (fun s a hinv _ => resultCurrent_of_carriesCurrent s a hinv) acts start carriesCurrent_start
    halone

/-- One launch, its result, and a second launch. -/
theorem results_current_upWeb :
    Along sysStep ResultCurrent start
      (upWeb ++ [.run 0 smooth, .request (.restartService "dev-1" "web" true)]
        ++ List.replicate 6 (.run 0 smooth)) :=
  results_current (by decide)

/-- Two launches overlap: the second begins while the wait of the first is pending. -/
def overlap : List Action :=
  upWeb ++ [.request (.restartService "dev-1" "web" true), .run 1 smooth]

/-- The wait of launch 1 then makes the service `Ready`, before launch 2 has
    restarted its unit. -/
theorem result_of_earlier_launch :
    ¬ Along sysStep ResultCurrent start (overlap ++ [.run 0 smooth]) := by
  intro h
  have hlast : ResultCurrent (run sysStep start overlap) (.run 0 smooth) :=
    ((along_append sysStep _ start overlap _).mp h).2.1
  have hsame := hlast (.waitReadiness "dev-1" "web" 1) (.service "dev-1" "web") 1 rfl rfl
    (by decide)
  have hready : (sysStep (run sysStep start overlap) (.run 0 smooth)).1.standing
      (.service "dev-1" "web") = some (.ready, none) := by decide
  have hstarting : (run sysStep start overlap).1.standing (.service "dev-1" "web")
      = some (.starting, none) := by decide
  rw [hready, hstarting] at hsame
  exact nomatch hsame

end DevstackLaunches
