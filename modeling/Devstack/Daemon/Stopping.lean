import Devstack.Daemon.System

/-! # Stopping — what is still in flight when `down` returns

    `down` and `kill` stop the handles and the units, then write `Stopped`.  The
    readiness tasks, monitors, watchers and restarts that are suspended at that
    moment go on; the mutators they reach do not look at the run's state.

    `Quiet` says of such a task, at each of its suspension points, that nothing on
    its way writes a service of the stopped run or restarts a unit of it.  A quiet
    task leaves the run's record exactly as it is and becomes quiet tasks
    (`quiet_step`), so a pool of quiet tasks leaves the run stopped along every
    schedule (`stays_down`). -/

namespace DevstackStopping

open DevstackModel DevstackStores DevstackHealth DevstackLaunch DevstackStatus
open DevstackLocked DevstackWorld DevstackTasks DevstackSystem DevstackInterleaving DevstackMachine

/-- What `down` and `kill` leave: the run is `Stopped`, and so is every service. -/
structure Down (run : RunRecord) : Prop where
  state : run.state = .stopped
  services : ∀ (name : String) (record : ServiceRecord), run.services[name]? = some record →
    record.runtime.state = .stopped

instance (run : RunRecord) : Decidable (Down run) :=
  decidable_of_iff
    (run.state = .stopped ∧ ∀ kv ∈ run.services.toList, kv.2.runtime.state = .stopped)
    (by
      constructor
      · rintro ⟨hstate, hservices⟩
        refine ⟨hstate, fun name record hget => hservices (name, record) ?_⟩
        exact Std.ExtTreeMap.mem_toList_iff_getElem?_eq_some.mpr hget
      · rintro ⟨hstate, hservices⟩
        refine ⟨hstate, fun kv hmem => hservices kv.1 kv.2 ?_⟩
        exact Std.ExtTreeMap.mem_toList_iff_getElem?_eq_some.mp hmem)

/-- A unit operation that starts or restarts a unit of the run. -/
def startsUnitOf (r : String) (op : UnitOp) : Bool :=
  decide (op.action = .start ∨ op.action = .restart) &&
    match op.owner with
    | .service run _ => decide (run = r)
    | .global _ => false

/-- The starts and restarts of the run's units so far. -/
def unitStarts (r : String) (w : World) : List UnitOp := w.unitOps.filter (startsUnitOf r)

/-- The readiness tasks, health monitors, watchers and restarts. -/
def Background : Task → Prop
  | .waitReadiness .. | .monitorInit .. | .monitorTop _ | .monitorSlept _ | .monitorProbe _
  | .monitorLimit _ | .watcherTop _ | .watcherEvent _ | .watcherCompare .. | .restart ..
  | .loadPostInit _ | .restartUnit _ | .restarted _ | .waitRestart _
  | .persist _ .finish | .persist _ (.restarted _) | .persist _ (.monitorTurn ..)
  | .write _ .finish | .write _ (.restarted _) | .write _ (.monitorTurn ..) => True
  | _ => False

/-! ## Quiet tasks -/

section Quiet

variable (r : String) (halted : RunRecord) (raised : List HandleId)

/-- The service is none of the stopped run's. -/
def Gone (run service : String) : Prop := run = r → halted.services[service]? = none

/-- A watcher that acts on no change: its service is not the run's, or does not
    restart by itself, or its watch is paused. -/
def Deaf (t : WatcherTask) : Prop :=
  t.run = r → ∀ record, halted.services[t.service]? = some record →
    record.spec.autoRestart = false ∨ record.runtime.watchPaused = true

/-- A watcher that is told to stop, or acts on no change. -/
def Silent (t : WatcherTask) : Prop := t.handle ∈ raised ∨ Deaf r halted t

/-- The caller a restart returns to. -/
def QuietCaller : Caller → Prop
  | .request => True
  | .monitor m => 3 ≤ m.monitor.restartCount → Gone r halted m.run m.service
  | .watcher t => Silent r halted raised t

/-- The code a write of a manifest returns to. -/
def QuietCont : Cont → Prop
  | .restarted caller => QuietCaller r halted raised caller
  | .monitorTurn m restart =>
      restart = true → Gone r halted m.run m.service ∧ QuietCaller r halted raised (.monitor m)
  | _ => True

/-- A task that will leave the stopped run alone. -/
def Quiet : Task → Prop
  | .persist _ k | .write _ k => QuietCont r halted raised k
  | .waitReadiness run service _ => Gone r halted run service
  | .monitorLimit m => Gone r halted m.run m.service
  | .watcherTop t => Silent r halted raised t
  | .watcherEvent t => Deaf r halted t
  | .watcherCompare t hash =>
      Silent r halted raised t ∧ (t.run = r → ∀ record,
        halted.services[t.service]? = some record → hashDiffers hash record = false)
  | .restart run service _ caller =>
      Gone r halted run service ∧ QuietCaller r halted raised caller
  | .loadPostInit q | .restartUnit q => q.run ≠ r ∧ QuietCaller r halted raised q.caller
  | .restarted q | .waitRestart q =>
      Gone r halted q.run q.service ∧ QuietCaller r halted raised q.caller
  | _ => True

variable {r halted raised}

theorem silent_mono {raised' : List HandleId} (hsub : raised ⊆ raised') {t : WatcherTask}
    (h : Silent r halted raised t) : Silent r halted raised' t :=
  h.imp (fun hmem => hsub hmem) id

theorem quietCaller_mono {raised' : List HandleId} (hsub : raised ⊆ raised') {caller : Caller}
    (h : QuietCaller r halted raised caller) : QuietCaller r halted raised' caller := by
  cases caller with
  | request => trivial
  | monitor m => exact h
  | watcher t => exact silent_mono hsub h

/-- Raising more flags keeps a task quiet. -/
theorem quiet_mono {raised' : List HandleId} (hsub : raised ⊆ raised') {t : Task}
    (h : Quiet r halted raised t) : Quiet r halted raised' t := by
  have hcont : ∀ k, QuietCont r halted raised k → QuietCont r halted raised' k := by
    intro k hk
    cases k with
    | restarted caller => exact quietCaller_mono hsub hk
    | monitorTurn m restart => exact hk
    | _ => trivial
  cases t with
  | persist run k => exact hcont k h
  | write manifest k => exact hcont k h
  | watcherTop t => exact silent_mono hsub h
  | watcherCompare t hash => exact ⟨silent_mono hsub h.1, h.2⟩
  | restart run service noWait caller => exact ⟨h.1, quietCaller_mono hsub h.2⟩
  | loadPostInit q | restartUnit q | restarted q | waitRestart q =>
      exact ⟨h.1, quietCaller_mono hsub h.2⟩
  | waitReadiness run service launch | monitorLimit m | watcherEvent t => exact h
  | _ => trivial

/-- A deaf watcher finds no hash that differs. -/
theorem deaf_hashDiffers {t : WatcherTask} (h : Deaf r halted t) (hash : String)
    (hrun : t.run = r) {record : ServiceRecord}
    (hget : halted.services[t.service]? = some record) : hashDiffers hash record = false := by
  rcases h hrun record hget with hauto | hpaused
  · simp [hashDiffers, hauto]
  · simp [hashDiffers, hpaused]

end Quiet

/-! ## Operations on a stopped run -/

section Down

variable {run : RunRecord} {service : String}

theorem insert_same {m : BTreeMap ServiceRecord} {record : ServiceRecord}
    (hget : m[service]? = some record) : m.insert service record = m := by
  refine Std.ExtTreeMap.ext_getElem? fun name => ?_
  rw [Std.ExtTreeMap.getElem?_insert]
  split
  · next heq => rw [← Std.LawfulEqCmp.eq_of_compare heq, hget]
  · rfl

/-- A change that keeps the record keeps the run. -/
theorem updateAndRecompute_same (hdown : Down run)
    {f : ServiceRecord → ServiceRecord × Option DaemonEvent}
    (hf : ∀ record, run.services[service]? = some record → f record = (record, none)) :
    updateAndRecompute run service f = (run, []) := by
  rw [updateAndRecompute]
  cases hget : run.services[service]? with
  | none => simp [recomputeRunState_stopped hdown.state]
  | some record => simp [hf record hget, insert_same hget, recomputeRunState_stopped hdown.state]

theorem updateService_same {f : ServiceRecord → ServiceRecord × List HandleId}
    (hf : ∀ record, run.services[service]? = some record → (f record).1 = record) :
    (updateService run service f).1 = run := by
  rw [updateService]
  cases hget : run.services[service]? with
  | none => rfl
  | some record => simp [hf record hget, insert_same hget]

/-- A health transition finds nothing to change in a stopped run. -/
theorem applyTransition_down (hdown : Down run) (runId now : String) (change : Transition) :
    applyTransition runId service now change run = (run, []) := by
  cases change with
  | healthy => rfl
  | recoverToReady =>
      refine updateAndRecompute_same hdown fun record hget => ?_
      simp [recoveredRecord, hdown.services service record hget]
  | markDegraded =>
      refine updateAndRecompute_same hdown fun record hget => ?_
      simp [degradedRecord, hdown.services service record hget]

end Down

/-! ## One step -/

/-- What a step leaves alone: the record of the stopped run, the starts of its
    units, the flags that are raised. -/
structure Kept (r : String) (halted : RunRecord) (w w' : World) : Prop where
  runs : w'.runs[r]? = some halted
  starts : unitStarts r w' = unitStarts r w
  raised : w.raised ⊆ w'.raised

section Kept

variable {r : String} {halted : RunRecord} {w : World}

theorem kept_refl (hrun : w.runs[r]? = some halted) : Kept r halted w w :=
  ⟨hrun, rfl, fun _ h => h⟩

/-- A locked step on another run, or one that keeps the stopped run. -/
theorem kept_lock (hrun : w.runs[r]? = some halted) {run : String} {op : RunOp}
    (hop : run = r → (op.apply halted).1 = halted) : Kept r halted w (w.lock run op) := by
  rw [World.lock]
  cases hget : w.runs[run]? with
  | none => exact kept_refl hrun
  | some record =>
      refine ⟨?_, rfl, fun handle h => List.mem_append_left _ h⟩
      show (w.runs.insert run (op.apply record).1)[r]? = some halted
      by_cases heq : run = r
      · subst heq
        obtain rfl : halted = record := Option.some.inj (hrun.symm.trans hget)
        simp [hop rfl]
      · simp [Std.ExtTreeMap.getElem?_insert, heq, hrun]

/-- A change of other fields of the world. -/
theorem kept_of_eq {w' w'' : World} (h : Kept r halted w w') (hruns : w''.runs = w'.runs)
    (hops : w''.unitOps = w'.unitOps) (hraised : w''.raised = w'.raised) :
    Kept r halted w w'' := by
  refine ⟨hruns ▸ h.runs, ?_, hraised ▸ h.raised⟩
  rw [← h.starts, unitStarts, unitStarts, hops]

/-- A unit operation on another run's unit. -/
theorem kept_unit (hrun : w.runs[r]? = some halted) {run service : String} (hne : run ≠ r)
    (action : UnitAction) (unitName : String) :
    Kept r halted w (w.unit action (.service run service) unitName) := by
  refine ⟨hrun, ?_, fun _ h => h⟩
  simp [unitStarts, World.unit, List.filter_append, startsUnitOf, hne]

theorem kept_deliver (hrun : w.runs[r]? = some halted) (hdown : Down halted)
    {run service : String} (hgone : Gone r halted run service) (now : String)
    (result : Except String Unit) : Kept r halted w (deliver w run service now result).1 := by
  have habsent : run = r → ∀ record, halted.services[service]? = some record → False := by
    intro heq record hget
    rw [hgone heq] at hget
    exact nomatch hget
  cases result with
  | error reason =>
      refine kept_lock hrun fun heq => ?_
      exact congrArg Prod.fst (updateAndRecompute_same hdown
        fun record hget => (habsent heq record hget).elim)
  | ok _ =>
      have hmark : Kept r halted w (w.lock run (.markReady service now w.nextHandle)) := by
        refine kept_lock hrun fun heq => ?_
        exact congrArg Prod.fst (updateAndRecompute_same hdown
          fun record hget => (habsent heq record hget).elim)
      simp only [deliver, markReadyStep]
      split
      · split
        · exact kept_of_eq hmark rfl rfl rfl
        · exact hmark
      · exact hmark

end Kept

/-- Background tasks that are quiet. -/
def QuietTasks (r : String) (halted : RunRecord) (raised : List HandleId) (ts : List Task) :
    Prop :=
  ∀ t ∈ ts, Background t ∧ Quiet r halted raised t

section QuietTasks

variable {r : String} {halted : RunRecord} {raised : List HandleId}

theorem quietTasks_nil : QuietTasks r halted raised [] := fun _ ht => (nomatch ht)

theorem quietTasks_cons {t : Task} {ts : List Task} (hback : Background t)
    (hquiet : Quiet r halted raised t) (hts : QuietTasks r halted raised ts) :
    QuietTasks r halted raised (t :: ts) := by
  intro t' ht'
  rcases List.mem_cons.mp ht' with rfl | ht'
  · exact ⟨hback, hquiet⟩
  · exact hts t' ht'

theorem quietTasks_one {t : Task} (hback : Background t) (hquiet : Quiet r halted raised t) :
    QuietTasks r halted raised [t] :=
  quietTasks_cons hback hquiet quietTasks_nil

theorem quietTasks_caller {caller : Caller} (h : QuietCaller r halted raised caller) :
    QuietTasks r halted raised caller.resume := by
  cases caller with
  | request => exact quietTasks_nil
  | watcher t => exact quietTasks_one trivial h
  | monitor m =>
      simp only [Caller.resume]
      split
      · next hlimit => exact quietTasks_one trivial (h hlimit)
      · exact quietTasks_one trivial trivial

/-- The code a write of a manifest returns to, of the three that are background. -/
theorem quietTasks_resume {k : Cont} (hk : k = .finish ∨ (∃ caller, k = .restarted caller)
      ∨ ∃ m restart, k = .monitorTurn m restart)
    (h : QuietCont r halted raised k) (result : Except String Unit) :
    QuietTasks r halted raised (k.resume result) := by
  rcases hk with rfl | ⟨caller, rfl⟩ | ⟨m, restart, rfl⟩
  · exact quietTasks_nil
  · exact quietTasks_caller h
  · simp only [Cont.resume]
    split
    · next hrestart => exact quietTasks_one trivial (h hrestart)
    · exact quietTasks_one trivial trivial

theorem quietTasks_deliver (w : World) (run service now : String)
    (result : Except String Unit) :
    QuietTasks r halted raised (deliver w run service now result).2 := by
  cases result with
  | error reason => exact quietTasks_nil
  | ok _ =>
      simp only [deliver, markReadyStep]
      split
      · split
        · exact quietTasks_one trivial trivial
        · exact quietTasks_nil
      · exact quietTasks_nil

/-- The continuations of a background write. -/
theorem background_cont {run : String} {k : Cont} (h : Background (.persist run k)) :
    k = .finish ∨ (∃ caller, k = .restarted caller) ∨ ∃ m restart, k = .monitorTurn m restart := by
  cases k with
  | finish => exact Or.inl rfl
  | restarted caller => exact Or.inr (Or.inl ⟨caller, rfl⟩)
  | monitorTurn m restart => exact Or.inr (Or.inr ⟨m, restart, rfl⟩)
  | _ => exact absurd h id

theorem background_write (run : String) {manifest : PersistedRun} {k : Cont} :
    Background (.write manifest k) ↔ Background (.persist run k) := by
  cases k <;> exact Iff.rfl

end QuietTasks

/-- **A QUIET TASK** leaves the stopped run alone and becomes quiet tasks. -/
theorem quiet_step {r : String} {halted : RunRecord} (hdown : Down halted) (env : Env)
    {w : World} (hrun : w.runs[r]? = some halted) {t : Task} (hback : Background t)
    (hquiet : Quiet r halted w.raised t) :
    Kept r halted w (t.step env w).1
      ∧ QuietTasks r halted w.raised (t.step env w).2 := by
  have hrefl : Kept r halted w w := kept_refl hrun
  cases t with
  | persist run k =>
      simp only [Task.step]
      split
      · exact ⟨hrefl, quietTasks_one ((background_write run).mpr hback) hquiet⟩
      · exact ⟨hrefl, quietTasks_resume (background_cont hback) hquiet _⟩
  | write manifest k =>
      have hk := background_cont ((background_write manifest.runId).mp hback)
      simp only [Task.step]
      split
      · exact ⟨hrefl, quietTasks_resume hk hquiet _⟩
      · exact ⟨kept_of_eq hrefl rfl rfl rfl, quietTasks_resume hk hquiet _⟩
  | waitReadiness run service launch =>
      exact ⟨kept_deliver hrun hdown hquiet _ _,
        quietTasks_cons trivial trivial (quietTasks_deliver w _ _ _ _)⟩
  | monitorInit run service =>
      simp only [Task.step]
      split
      · exact ⟨hrefl, quietTasks_nil⟩
      · split
        · exact ⟨hrefl, quietTasks_nil⟩
        · exact ⟨hrefl, quietTasks_one trivial trivial⟩
  | monitorTop m | monitorSlept m =>
      simp only [Task.step]
      split
      · exact ⟨hrefl, quietTasks_nil⟩
      · exact ⟨hrefl, quietTasks_one trivial trivial⟩
  | monitorProbe m =>
      refine ⟨kept_lock hrun fun _ => ?_, ?_⟩
      · exact congrArg Prod.fst (applyTransition_down hdown _ _ _)
      · by_cases heq : m.run = r
        · -- a probe of the stopped run has no events
          simp only [Task.step, heq, hrun, applyTransition_down hdown, if_true]
          exact quietTasks_one trivial trivial
        · have hgone : Gone r halted m.run m.service := fun h => absurd h heq
          simp only [Task.step]
          split
          · split
            · exact quietTasks_one trivial trivial
            · exact quietTasks_one trivial (fun _ => ⟨hgone, fun _ => hgone⟩)
          · exact quietTasks_one trivial trivial
  | monitorLimit m =>
      refine ⟨kept_lock hrun fun heq => ?_, quietTasks_one trivial trivial⟩
      refine congrArg Prod.fst (updateAndRecompute_same hdown fun record hget => ?_)
      rw [hquiet heq] at hget
      cases hget
  | watcherTop t =>
      simp only [Task.step]
      split
      · exact ⟨hrefl, quietTasks_nil⟩
      · next hraised =>
          exact ⟨hrefl, quietTasks_one trivial (hquiet.resolve_left hraised)⟩
  | watcherEvent t =>
      have htop : QuietTasks r halted w.raised [.watcherTop t] :=
        quietTasks_one trivial (Or.inr hquiet)
      simp only [Task.step]
      split
      · exact ⟨hrefl, quietTasks_nil⟩
      · exact ⟨hrefl, htop⟩
      · split
        · exact ⟨hrefl, htop⟩
        · split
          · exact ⟨hrefl, htop⟩
          · exact ⟨hrefl, quietTasks_one trivial
              ⟨Or.inr hquiet, fun heq _ hget => deaf_hashDiffers hquiet _ heq hget⟩⟩
  | watcherCompare t hash =>
      obtain ⟨hsilent, hsame⟩ := hquiet
      have hcompare : Kept r halted w (w.lock t.run (.compareHash t.service hash)) := by
        refine kept_lock hrun fun heq => updateService_same fun record hget => ?_
        simp [plainly, compareHashRecord, hsame heq record hget]
      simp only [Task.step]
      split
      · exact ⟨hrefl, quietTasks_nil⟩
      · next record hget =>
          refine ⟨kept_of_eq hcompare rfl rfl rfl, ?_⟩
          split
          · next hdiffers =>
              have hne : t.run ≠ r := by
                intro heq
                rw [heq, hrun] at hget
                exact absurd (hsame heq record hget) (by rw [hdiffers]; decide)
              exact quietTasks_one trivial ⟨fun heq => absurd heq hne, hsilent⟩
          · exact quietTasks_one trivial hsilent
  | restart run service noWait caller =>
      obtain ⟨hgone, hcaller⟩ := hquiet
      simp only [Task.step]
      split
      · exact ⟨hrefl, quietTasks_caller hcaller⟩
      · next record hrecord =>
          split
          · exact ⟨hrefl, quietTasks_caller hcaller⟩
          · next service hservice =>
              have hne : run ≠ r := by
                intro heq
                rw [heq, hrun] at hrecord
                cases hrecord
                rw [hgone heq] at hservice
                cases hservice
              refine ⟨kept_of_eq (kept_lock hrun fun heq => absurd heq hne) rfl rfl rfl, ?_⟩
              exact quietTasks_one trivial ⟨hne, hcaller⟩
  | loadPostInit q =>
      simp only [Task.step]
      split
      · exact ⟨hrefl, quietTasks_caller hquiet.2⟩
      · exact ⟨hrefl, quietTasks_one trivial hquiet⟩
  | restartUnit q =>
      refine ⟨kept_unit hrun hquiet.1 .restart q.unitName, ?_⟩
      simp only [Task.step]
      split
      · exact quietTasks_caller hquiet.2
      · exact quietTasks_one trivial ⟨fun heq => absurd heq hquiet.1, hquiet.2⟩
  | restarted q =>
      obtain ⟨hgone, hcaller⟩ := hquiet
      refine ⟨kept_lock hrun fun heq => updateService_same fun record hget => ?_, ?_⟩
      · rw [hgone heq] at hget
        cases hget
      · simp only [Task.step]
        split
        · exact quietTasks_cons trivial hcaller (quietTasks_one trivial hgone)
        · exact quietTasks_one trivial ⟨hgone, hcaller⟩
  | waitRestart q =>
      simp only [Task.step]
      split
      · exact ⟨hrefl, quietTasks_caller hquiet.2⟩
      · exact ⟨kept_deliver hrun hdown hquiet.1 _ _,
          quietTasks_cons trivial hquiet.2 (quietTasks_deliver w _ _ _ _)⟩
  | _ => exact absurd hback id

/-! ## Every schedule -/

/-- **A STOPPED RUN STAYS STOPPED** and no unit of it is started or restarted, on
    every schedule of background tasks that are quiet when it was stopped. -/
theorem stays_down {r : String} {halted : RunRecord} {s : Sys} (hrun : s.1.runs[r]? = some halted)
    (hdown : Down halted) (hback : ∀ t ∈ s.2, Background t)
    (hquiet : ∀ t ∈ s.2, Quiet r halted s.1.raised t) (as : List (Nat × Env)) :
    (run (stepAt Task.step) s as).1.runs[r]? = some halted
      ∧ unitStarts r (run (stepAt Task.step) s as).1 = unitStarts r s.1 := by
  have hstep : ∀ (env : Env) (w : World) (t : Task), w.runs[r]? = some halted →
      Background t ∧ Quiet r halted w.raised t → _ :=
    fun env w t hrun ht => quiet_step hdown env hrun ht.1 ht.2
  refine (schedule_rely Task.step (P := fun w t => Background t ∧ Quiet r halted w.raised t)
    (Q := fun w => w.runs[r]? = some halted ∧ unitStarts r w = unitStarts r s.1)
    ?_ ?_ ?_ as s ⟨hrun, rfl⟩ (fun t ht => ⟨hback t ht, hquiet t ht⟩)).1
  · rintro env w t ⟨hw, hstarts⟩ ht
    have hkept := (hstep env w t hw ht).1
    exact ⟨hkept.runs, hkept.starts.trans hstarts⟩
  · rintro env w t ⟨hw, -⟩ ht t' ht'
    obtain ⟨hkept, hnext⟩ := hstep env w t hw ht
    exact ⟨(hnext t' ht').1, quiet_mono hkept.raised (hnext t' ht').2⟩
  · rintro env w t t' ⟨hw, -⟩ ht ht'
    exact ⟨ht'.1, quiet_mono (hstep env w t hw ht).1.raised ht'.2⟩

/-- `down` of the one run, from the request to its answer. -/
def downWeb : List Action :=
  .request (.down "dev-1" false) :: List.replicate 8 (.run 1 smooth)

/-- `down` when the service is `Ready` and its monitor sleeps. -/
def readyThenDown : Sys := run sysStep start (upWeb ++ List.replicate 4 (.run 0 smooth) ++ downWeb)

theorem stays_down_monitor :
    (run (stepAt Task.step) readyThenDown (List.replicate 3 (0, smooth))).1.runs["dev-1"]?
        = readyThenDown.1.runs["dev-1"]?
      ∧ unitStarts "dev-1" (run (stepAt Task.step) readyThenDown (List.replicate 3 (0, smooth))).1
        = unitStarts "dev-1" readyThenDown.1 := by
  have hdown : ∃ halted ∈ readyThenDown.1.runs["dev-1"]?, Down halted := by decide
  obtain ⟨halted, hrun, hdown⟩ := hdown
  have htasks : readyThenDown.2 = [_] := rfl
  rw [Option.mem_def.mp hrun]
  refine stays_down hrun hdown ?_ ?_ _
  · rw [htasks]
    intro t ht
    rw [List.mem_singleton.mp ht]
    trivial
  · rw [htasks]
    intro t ht
    rw [List.mem_singleton.mp ht]
    trivial

/-- `down` while the readiness wait of the launch is pending. -/
def downWhileWaiting : Sys := run sysStep start (upWeb ++ downWeb)

/-- The wait ends after `down` returned and makes the service `Ready`. -/
theorem ready_after_down :
    (∃ halted ∈ downWhileWaiting.1.runs["dev-1"]?, Down halted)
      ∧ (∀ t ∈ downWhileWaiting.2, Background t)
      ∧ ¬ ∃ run ∈ (stepAt Task.step downWhileWaiting (0, smooth)).1.runs["dev-1"]?, Down run := by
  have htasks : downWhileWaiting.2 = [.waitReadiness "dev-1" "web" 1] := rfl
  refine ⟨by decide, ?_, by decide⟩
  rw [htasks]
  intro t ht
  rw [List.mem_singleton.mp ht]
  trivial

end DevstackStopping
