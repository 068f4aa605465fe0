import Devstack.Launch
import Mathlib.Logic.Relation

/-! # Gating — launching the services of a stack

    `launch_service` and `launch_services` of `src/app/commands/runs.rs`, with
    the unit starts they make recorded next to the run as it was at that moment.

    The order of a plan puts dependencies first, so what gates a service is what
    the launch of its dependencies returned and what it left in the run:

    * `fate`: the branch a launch leaves through, from its inputs alone;
    * `launchService_spec`: what each branch returns, starts and stores;
    * `launch_gated_iff`: a unit is only started on `Ready` dependencies exactly
      when no dependency left through the three branches that go on without it
      being ready. -/

namespace DevstackGating

open DevstackModel DevstackStores DevstackHealth DevstackConfig DevstackLaunch

/-! ## `launch_service` -/

/-- What the outside answers during one `launch_service`: the result of every
    call it awaits, the handles it may be given and the clock readings. -/
structure LaunchAnswers where
  prepared : Except String PreparedService
  init : Except String Unit
  start : Except String Unit
  releasePort : Except String Unit
  releaseListenPort : Except String Unit
  watcher : Except String Unit
  watchHandle : HandleId
  proxy : Except String Unit
  captureHandle : HandleId
  readiness : Except String Unit
  detailed : String
  healthHandle : HandleId
  startedAt : String
  markedAt : String

/-- A unit start, and the run at that moment. -/
structure StartEvent where
  service : String
  restart : Bool
  run : RunRecord

/-- What a launch works on: the run, the flags it raised and its unit starts. -/
structure LaunchState where
  run : RunRecord
  raised : List HandleId
  starts : List StartEvent

/-- A locked step on one service, with the flags it raises. -/
def LaunchState.update (s : LaunchState) (service : String)
    (f : ServiceRecord → ServiceRecord × List HandleId) : LaunchState :=
  let updated := updateService s.run service f
  { s with run := updated.1, raised := s.raised ++ updated.2 }

/-- `replace_service_record` under the lock. -/
def LaunchState.replace (s : LaunchState) (service : String) (record : ServiceRecord) :
    LaunchState :=
  let replaced := replaceServiceRecord s.run service record
  { s with run := replaced.1, raised := s.raised ++ replaced.2 }

/-- `sync_service_auto_restart_watcher`; launches drop its error. -/
def watcherSynced (answers : LaunchAnswers) (record : ServiceRecord) :
    ServiceRecord × List HandleId :=
  let begun := watchSyncBegin record
  match watchSync record, answers.watcher with
  | .start _, .ok _ =>
      (watchSyncKeep answers.watchHandle begun.1,
        begun.2 ++ if watchSyncKeeps begun.1 then [] else [answers.watchHandle])
  | _, _ => begun

/-- `sync_service_api_capture_proxy`: the record it leaves. -/
def captureSynced (answers : LaunchAnswers) (record : ServiceRecord) :
    ServiceRecord × List HandleId :=
  let begun := captureSyncBegin record
  match captureStarts record, answers.proxy with
  | true, .ok _ =>
      (captureSyncKeep answers.captureHandle begun.1,
        begun.2 ++ if captureSyncKeeps begun.1 then [] else [answers.captureHandle])
  | _, _ => begun

/-- `sync_service_api_capture_proxy`: its result, an error of the proxy alone. -/
def captureResult (answers : LaunchAnswers) (run : RunRecord) (service : String) :
    Except String Unit :=
  match run.services[service]? with
  | some record => if captureStarts record then answers.proxy else .ok ()
  | none => .ok ()

/-- `sync_unchanged_service`. -/
def syncUnchangedService (answers : LaunchAnswers) (service : String)
    (prepared : PreparedService) (s : LaunchState) : LaunchState :=
  let s := s.update service (fun record => applyPreparedToRuntime record prepared false)
  let s := s.update service (watcherSynced answers)
  s.update service (captureSynced answers)

/-- `record_failed_init_service`. -/
def recordFailedInitService (answers : LaunchAnswers) (service : String)
    (prepared : PreparedService) (error : String) (s : LaunchState) : LaunchState :=
  let s := s.replace service (failedInitRecord prepared error)
  s.update service (watcherSynced answers)

/-- `store_service_launch_result`. -/
def storeServiceLaunchResult (answers : LaunchAnswers) (service : String)
    (prepared : PreparedService) (s : LaunchState) : LaunchState :=
  let s := s.replace service (launchResultRecord prepared answers.start answers.startedAt)
  s.update service (watcherSynced answers)

/-- `mark_service_failed` on the launch's run. -/
def LaunchState.markFailed (s : LaunchState) (service now reason : String) : LaunchState :=
  { s with run := (markServiceFailed s.run.runId service now reason s.run).1 }

/-- `mark_service_ready` on the launch's run. -/
def LaunchState.markReady (s : LaunchState) (service now : String) (fresh : HandleId) :
    LaunchState :=
  { s with run := (markServiceReady s.run.runId service now fresh s.run).1 }

/-- `run_init_tasks_blocking`, when there are tasks. -/
def initResult (answers : LaunchAnswers) (service : ServiceConfig) : Except String Unit :=
  match service.init with
  | some (_ :: _) => answers.init
  | _ => .ok ()

/-- The two releases of the ports the previous record held. -/
def releasePrevious (answers : LaunchAnswers)
    (existing : BTreeMap ExistingServiceSnapshot) (service : String)
    (prepared : PreparedService) : Except String Unit :=
  let previousPort := (existing[service]?).bind (·.port)
  let previousListenPort := (existing[service]?).bind (·.listenPort)
  let first :=
    if previousPort.isSome ∧ previousPort ≠ prepared.port then answers.releasePort else .ok ()
  match first with
  | .error err => .error err
  | .ok _ =>
      if previousListenPort.isSome ∧ previousListenPort ≠ prepared.listenPort
          ∧ previousListenPort ≠ previousPort then answers.releaseListenPort
      else .ok ()

/-- `handle_readiness`; without waiting it spawns the wait as a task of its own. -/
def handleReadiness (answers : LaunchAnswers) (noWait : Bool) (service : String)
    (s : LaunchState) : LaunchState × Except String Unit :=
  if noWait then (s, .ok ())
  else
    match answers.readiness with
    | .ok _ => (s.markReady service answers.markedAt answers.healthHandle, .ok ())
    | .error _ =>
        (s.markFailed service answers.markedAt answers.detailed, .error answers.detailed)

/-- The part of `launch_service` from the unit start on. -/
def startService (answers : LaunchAnswers) (noWait : Bool)
    (existing : BTreeMap ExistingServiceSnapshot) (service : String)
    (prepared : PreparedService) (s : LaunchState) : LaunchState × Except String Unit :=
  let s := { s with starts := s.starts ++ [⟨service, existing.contains service, s.run⟩] }
  match releasePrevious answers existing service prepared with
  | .error err => (s, .error err)
  | .ok _ =>
      let s := storeServiceLaunchResult answers service prepared s
      match answers.start with
      | .error _ => (s, .ok ())
      | .ok _ =>
          let result := captureResult answers s.run service
          let s := s.update service (captureSynced answers)
          match result with
          | .error err =>
              let reason := s!"API capture proxy failed: {err}"
              (s.markFailed service answers.markedAt reason, .error reason)
          | .ok _ => handleReadiness answers noWait service s

/-- `launch_service`. -/
def launchService (plan : StackPlan) (noWait force : Bool)
    (existing : BTreeMap ExistingServiceSnapshot) (answers : LaunchAnswers) (name : String)
    (s : LaunchState) : LaunchState × Except String Unit :=
  match plan.services[name]? with
  | none => (s, .error s!"service {name} missing")
  | some service =>
      match answers.prepared with
      | .error err => (s, .error err)
      | .ok prepared =>
          if existing.isEmpty = false
              ∧ serviceNeedsRestart force existing name prepared = false then
            (syncUnchangedService answers name prepared s, .ok ())
          else
            match initResult answers service with
            | .error err => (recordFailedInitService answers name prepared err s, .ok ())
            | .ok _ => startService answers noWait existing name prepared s

/-- The loop of `launch_services` over (the rest of) the plan's order. -/
def launchServices (plan : StackPlan) (noWait force : Bool)
    (existing : BTreeMap ExistingServiceSnapshot) (answers : String → LaunchAnswers) :
    List String → LaunchState → LaunchState × Except String Unit
  | [], s => (s, .ok ())
  | name :: names, s =>
      match launchService plan noWait force existing (answers name) name s with
      | (s, .ok _) => launchServices plan noWait force existing answers names s
      | (s, .error err) => (s, .error err)

/-! ## The branch a launch leaves through -/

inductive Fate where
  | refused
  | unchanged
  | initFailed
  | releaseFailed
  | startFailed
  | proxyFailed
  | notReady
  | ready
  deriving DecidableEq, Repr

/-- Whether `launch_services` goes on after this branch. -/
def Fate.goesOn : Fate → Bool
  | .unchanged | .initFailed | .startFailed | .ready => true
  | .refused | .releaseFailed | .proxyFailed | .notReady => false

/-- Whether the unit was started in this branch. -/
def Fate.starts : Fate → Bool
  | .refused | .unchanged | .initFailed => false
  | .releaseFailed | .startFailed | .proxyFailed | .notReady | .ready => true

/-- Whether the started service asks for a capture proxy. -/
def wantsProxy (prepared : PreparedService) : Bool :=
  prepared.captureApi && prepared.port.isSome && prepared.listenPort.isSome

/-- The branch from the unit start on. -/
def startFate (answers : LaunchAnswers) (existing : BTreeMap ExistingServiceSnapshot)
    (name : String) (prepared : PreparedService) : Fate :=
  match releasePrevious answers existing name prepared, answers.start with
  | .error _, _ => .releaseFailed
  | .ok _, .error _ => .startFailed
  | .ok _, .ok _ =>
      match (if wantsProxy prepared then answers.proxy else .ok ()), answers.readiness with
      | .error _, _ => .proxyFailed
      | .ok _, .error _ => .notReady
      | .ok _, .ok _ => .ready

/-- The branch of a waiting launch, from its inputs. -/
def fate (plan : StackPlan) (force : Bool) (existing : BTreeMap ExistingServiceSnapshot)
    (answers : LaunchAnswers) (name : String) : Fate :=
  match plan.services[name]?, answers.prepared with
  | some service, .ok prepared =>
      if existing.isEmpty = false
          ∧ serviceNeedsRestart force existing name prepared = false then .unchanged
      else
        match initResult answers service with
        | .error _ => .initFailed
        | .ok _ => startFate answers existing name prepared
  | _, _ => .refused

/-- The state of a service in a run. -/
def stateIn (run : RunRecord) (name : String) : Option ServiceState :=
  (run.services[name]?).map (·.runtime.state)

/-- The state a branch that goes on leaves, given the state before it. -/
def Fate.leaves (before : Option ServiceState) : Fate → Option ServiceState
  | .ready => some .ready
  | .initFailed | .startFailed => some .failed
  | _ => before

/-! ## What the steps do to the states -/

section Steps

variable (s : LaunchState) (service : String)

@[simp] theorem update_starts (f : ServiceRecord → ServiceRecord × List HandleId) :
    (s.update service f).starts = s.starts := rfl

@[simp] theorem replace_starts (record : ServiceRecord) :
    (s.replace service record).starts = s.starts := rfl

@[simp] theorem markFailed_starts (now reason : String) :
    (s.markFailed service now reason).starts = s.starts := rfl

@[simp] theorem markReady_starts (now : String) (fresh : HandleId) :
    (s.markReady service now fresh).starts = s.starts := rfl

/-- A step that keeps the runtime keeps every state. -/
theorem stateIn_update {f : ServiceRecord → ServiceRecord × List HandleId}
    (hf : ∀ record, (f record).1.runtime = record.runtime) (m : String) :
    stateIn (s.update service f).run m = stateIn s.run m := by
  show ((updateService s.run service f).1.services[m]?).map _ = _
  rw [updateService_services, stateIn]
  by_cases h : m = service
  · rw [if_pos h, Option.map_map]
    cases s.run.services[m]? with
    | none => rfl
    | some record => exact congrArg (fun r : ServiceRuntimeState => some r.state) (hf record)
  · rw [if_neg h]

theorem stateIn_replace (record : ServiceRecord) (m : String) :
    stateIn (s.replace service record).run m
      = if m = service then some record.runtime.state else stateIn s.run m := by
  show ((replaceServiceRecord s.run service record).1.services[m]?).map _ = _
  rw [replaceServiceRecord_services, stateIn]
  split <;> rfl

theorem stateIn_markReady (now : String) (fresh : HandleId) (m : String) :
    stateIn (s.markReady service now fresh).run m
      = if m = service then (stateIn s.run m).map (fun _ => .ready) else stateIn s.run m := by
  show ((updateAndRecompute s.run service _).1.services[m]?).map _ = _
  rw [updateAndRecompute_services, stateIn]
  by_cases h : m = service
  · rw [if_pos h, if_pos h, Option.map_map, Option.map_map]
    refine congrArg (fun g => Option.map g _) (funext fun record => ?_)
    simp only [readyRecord, Function.comp_apply]
    split <;> simp
  · rw [if_neg h, if_neg h]

variable (answers : LaunchAnswers)

theorem watcherSynced_runtime (record : ServiceRecord) :
    (watcherSynced answers record).1.runtime = record.runtime := by
  simp only [watcherSynced]
  split <;> simp

theorem captureSynced_runtime (record : ServiceRecord) :
    (captureSynced answers record).1.runtime = record.runtime := by
  simp only [captureSynced]
  split <;> simp

theorem stateIn_syncUnchanged (prepared : PreparedService) (m : String) :
    stateIn (syncUnchangedService answers service prepared s).run m = stateIn s.run m := by
  rw [syncUnchangedService, stateIn_update _ _ (captureSynced_runtime answers),
    stateIn_update _ _ (watcherSynced_runtime answers),
    stateIn_update _ _ (fun record => applyPreparedToRuntime_runtime record prepared)]

theorem watcherSynced_plan (record : ServiceRecord) :
    (watcherSynced answers record).1.spec = record.spec
      ∧ (watcherSynced answers record).1.launch = record.launch := by
  have hbegun : (watchSyncBegin record).1.spec = record.spec
      ∧ (watchSyncBegin record).1.launch = record.launch := by
    rw [watchSyncBegin]
    split <;> exact ⟨rfl, rfl⟩
  simp only [watcherSynced]
  split
  · rw [watchSyncKeep]
    split <;> exact hbegun
  · exact hbegun

theorem captureSynced_plan (record : ServiceRecord) :
    (captureSynced answers record).1.spec = record.spec
      ∧ (captureSynced answers record).1.launch = record.launch := by
  have hbegun : (captureSyncBegin record).1.spec = record.spec
      ∧ (captureSyncBegin record).1.launch = record.launch := by
    rw [captureSyncBegin]
    split <;> exact ⟨rfl, rfl⟩
  simp only [captureSynced]
  split
  · rw [captureSyncKeep]
    split <;> exact hbegun
  · exact hbegun

/-- What the whole of `sync_unchanged_service` leaves of a record is an update in place
    under the condition of the first step. -/
theorem syncUnchanged_inPlace_iff (prepared : PreparedService) {record : ServiceRecord}
    (hget : s.run.services[service]? = some record) :
    ∃ after, (syncUnchangedService answers service prepared s).run.services[service]? = some after
      ∧ (InPlace record prepared after
        ↔ prepared.autoRestart = record.spec.autoRestart ∨ record.runtime.watchPaused = false) := by
  refine ⟨(captureSynced answers
    (watcherSynced answers (applyPreparedToRuntime record prepared false).1).1).1, ?_, ?_⟩
  · simp only [syncUnchangedService, LaunchState.update]
    rw [updateService_services, if_pos rfl, updateService_services, if_pos rfl,
      updateService_services, if_pos rfl, hget]
    rfl
  · obtain ⟨hspec, hlaunch⟩ := captureSynced_plan answers
      (watcherSynced answers (applyPreparedToRuntime record prepared false).1).1
    obtain ⟨hspec', hlaunch'⟩ := watcherSynced_plan answers
      (applyPreparedToRuntime record prepared false).1
    refine inPlace_iff_of_kept ?_ ?_ ?_
    · rw [hspec, hspec', applyPreparedToRuntime_spec]
    · rw [hlaunch, hlaunch', applyPreparedToRuntime_launch]
    · rw [captureSynced_runtime, watcherSynced_runtime, applyPreparedToRuntime_runtime]

theorem stateIn_failedInit (prepared : PreparedService) (error m : String) :
    stateIn (recordFailedInitService answers service prepared error s).run m
      = if m = service then some .failed else stateIn s.run m := by
  rw [recordFailedInitService, stateIn_update _ _ (watcherSynced_runtime answers),
    stateIn_replace, failedInitRecord_state]

theorem stateIn_storeResult (prepared : PreparedService) (m : String) :
    stateIn (storeServiceLaunchResult answers service prepared s).run m
      = if m = service then
          some (match answers.start with
            | .ok _ => .starting
            | .error _ => .failed)
        else stateIn s.run m := by
  rw [storeServiceLaunchResult, stateIn_update _ _ (watcherSynced_runtime answers),
    stateIn_replace]
  cases answers.start <;> rfl

/-- The record stored after a start that succeeded asks for a proxy exactly when
    the prepared service does. -/
theorem captureResult_storeResult (prepared : PreparedService) {u : Unit}
    (hstart : answers.start = .ok u) :
    captureResult answers (storeServiceLaunchResult answers service prepared s).run service
      = if wantsProxy prepared then answers.proxy else .ok () := by
  have hget : (storeServiceLaunchResult answers service prepared s).run.services[service]?
      = some (watcherSynced answers
          (intoServiceRecord prepared .starting none (some answers.startedAt))).1 := by
    simp only [storeServiceLaunchResult, LaunchState.update, LaunchState.replace]
    rw [updateService_services, if_pos rfl, replaceServiceRecord_services, if_pos rfl, hstart]
    rfl
  have hcapture : ∀ record : ServiceRecord,
      (watcherSynced answers record).1.handles.apiCapture = record.handles.apiCapture
        ∧ (watcherSynced answers record).1.launch = record.launch := by
    intro record
    simp only [watcherSynced]
    split <;> simp
  rw [captureResult, hget]
  simp only [captureStarts, captureOff, hcapture, watcherSynced_runtime]
  simp [intoServiceRecord, PreparedService.launch, ServiceRecord.new, wantsProxy]

end Steps

/-! ## What each branch returns, starts and stores -/

/-- What a launch that leaves through the branch `f` does to `s`. -/
structure LaunchSpec (f : Fate) (event : StartEvent) (name : String) (s : LaunchState)
    (result : LaunchState × Except String Unit) : Prop where
  ok : result.2 = .ok () ↔ f.goesOn = true
  starts : result.1.starts = s.starts ++ if f.starts then [event] else []
  states : f.goesOn = true → ∀ m, stateIn result.1.run m
    = if m = name then f.leaves (stateIn s.run m) else stateIn s.run m

section LaunchService

variable (answers : LaunchAnswers) (existing : BTreeMap ExistingServiceSnapshot)
variable (name : String)

theorem startService_spec (prepared : PreparedService) (s : LaunchState) :
    LaunchSpec (startFate answers existing name prepared)
      ⟨name, existing.contains name, s.run⟩ name s
      (startService answers false existing name prepared s) := by
  simp only [startService, startFate]
  cases hrelease : releasePrevious answers existing name prepared with
  | error err => exact ⟨⟨(fun h => nomatch h), (fun h => nomatch h)⟩, rfl, (fun h => nomatch h)⟩
  | ok u =>
      cases hstart : answers.start with
      | error err =>
          refine ⟨⟨fun _ => rfl, fun _ => rfl⟩, rfl, fun _ m => ?_⟩
          simp only [stateIn_storeResult, hstart]
          rfl
      | ok v =>
          simp only [captureResult_storeResult _ _ _ _ hstart]
          cases hproxy : (if wantsProxy prepared then answers.proxy else .ok ()) with
          | error err =>
              exact ⟨⟨(fun h => nomatch h), (fun h => nomatch h)⟩, rfl, (fun h => nomatch h)⟩
          | ok w =>
              cases hready : answers.readiness with
              | error err =>
                  simp only [handleReadiness, hready]
                  exact ⟨⟨(fun h => nomatch h), (fun h => nomatch h)⟩, rfl,
                    (fun h => nomatch h)⟩
              | ok x =>
                  simp only [handleReadiness, hready]
                  refine ⟨⟨fun _ => rfl, fun _ => rfl⟩, rfl, fun _ m => ?_⟩
                  -- `Starting` is stored, then overwritten by `Ready`
                  simp only [Bool.false_eq_true, if_false, stateIn_markReady,
                    stateIn_update _ _ (captureSynced_runtime answers), stateIn_storeResult]
                  by_cases hm : m = name
                  · rw [if_pos hm, if_pos hm, if_pos hm]; rfl
                  · rw [if_neg hm, if_neg hm, if_neg hm]

theorem launchService_spec (plan : StackPlan) (force : Bool) (s : LaunchState) :
    LaunchSpec (fate plan force existing answers name)
      ⟨name, existing.contains name, s.run⟩ name s
      (launchService plan false force existing answers name s) := by
  simp only [launchService, fate]
  cases plan.services[name]? with
  | none => exact ⟨⟨(fun h => nomatch h), (fun h => nomatch h)⟩, by simp [Fate.starts],
      (fun h => nomatch h)⟩
  | some service =>
      cases answers.prepared with
      | error err => exact ⟨⟨(fun h => nomatch h), (fun h => nomatch h)⟩,
          by simp [Fate.starts], (fun h => nomatch h)⟩
      | ok prepared =>
          simp only
          by_cases hskip : existing.isEmpty = false
              ∧ serviceNeedsRestart force existing name prepared = false
          · rw [if_pos hskip, if_pos hskip]
            refine ⟨⟨fun _ => rfl, fun _ => rfl⟩, ?_, fun _ m => ?_⟩
            · simp [Fate.starts, syncUnchangedService]
            · rw [stateIn_syncUnchanged]
              exact (ite_self _).symm
          · rw [if_neg hskip, if_neg hskip]
            cases initResult answers service with
            | error err =>
                refine ⟨⟨fun _ => rfl, fun _ => rfl⟩, ?_, fun _ m => ?_⟩
                · simp [Fate.starts, recordFailedInitService]
                · rw [stateIn_failedInit]; rfl
            | ok u => exact startService_spec answers existing name prepared s

end LaunchService

/-! ## The loop -/

section Loop

variable (plan : StackPlan) (force : Bool) (existing : BTreeMap ExistingServiceSnapshot)
variable (answers : String → LaunchAnswers)

/-- The branch of every service of a launch. -/
def fates (name : String) : Fate := fate plan force existing (answers name) name

variable {plan force existing answers}

theorem launchServices_goesOn {name : String} (names : List String) (s : LaunchState)
    (h : (fates plan force existing answers name).goesOn = true) :
    launchServices plan false force existing answers (name :: names) s
      = launchServices plan false force existing answers names
          (launchService plan false force existing (answers name) name s).1 := by
  have hok := (launchService_spec (answers name) existing name plan force s).ok.mpr h
  rw [launchServices]
  split
  next heq => rw [heq]
  next heq => rw [heq] at hok; exact nomatch hok

theorem launchServices_stops {name : String} (names : List String) (s : LaunchState)
    (h : (fates plan force existing answers name).goesOn = false) :
    launchServices plan false force existing answers (name :: names) s
      = launchService plan false force existing (answers name) name s := by
  have hok := (launchService_spec (answers name) existing name plan force s).ok
  rw [launchServices]
  split
  next u heq =>
      have hgoes := hok.mp (by rw [heq])
      rw [fates] at h
      rw [h] at hgoes
      exact nomatch hgoes
  next heq => exact heq.symm

/-- The unit starts of a launch: one for each service that is reached and starts
    its unit, at the run its predecessors left. -/
theorem mem_starts (names : List String) (s : LaunchState) (ev : StartEvent) :
    ev ∈ (launchServices plan false force existing answers names s).1.starts
      ↔ ev ∈ s.starts ∨ ∃ xs name ys, names = xs ++ name :: ys
          ∧ (∀ m ∈ xs, (fates plan force existing answers m).goesOn = true)
          ∧ (fates plan force existing answers name).starts = true
          ∧ ev = ⟨name, existing.contains name,
              (launchServices plan false force existing answers xs s).1.run⟩ := by
  induction names generalizing s with
  | nil =>
      constructor
      · exact Or.inl
      · rintro (h | ⟨xs, name, ys, hsplit, -⟩)
        · exact h
        · exact absurd hsplit (by simp)
  | cons n names ih =>
      have hspec := launchService_spec (answers n) existing n plan force s
      have hstarts : ev ∈ (launchService plan false force existing (answers n) n s).1.starts
          ↔ ev ∈ s.starts ∨ ((fates plan force existing answers n).starts = true
              ∧ ev = ⟨n, existing.contains n, s.run⟩) := by
        rw [hspec.starts, fates]
        cases (fate plan force existing (answers n) n).starts <;> simp
      cases hgoes : (fates plan force existing answers n).goesOn with
      | false =>
          rw [launchServices_stops names s hgoes, hstarts]
          refine or_congr_right ⟨?_, ?_⟩
          · rintro ⟨hfate, rfl⟩
            exact ⟨[], n, names, rfl, (fun _ h => nomatch h), hfate, rfl⟩
          · rintro ⟨xs, name, ys, hsplit, hall, hfate, rfl⟩
            cases xs with
            | nil => cases hsplit; exact ⟨hfate, rfl⟩
            | cons x xs =>
                cases hsplit
                have := hall n (by simp)
                rw [hgoes] at this
                exact nomatch this
      | true =>
          rw [launchServices_goesOn names s hgoes, ih, hstarts, or_assoc]
          refine or_congr_right ⟨?_, ?_⟩
          · rintro (⟨hfate, rfl⟩ | ⟨xs, name, ys, hsplit, hall, hfate, rfl⟩)
            · exact ⟨[], n, names, rfl, (fun _ h => nomatch h), hfate, rfl⟩
            · refine ⟨n :: xs, name, ys, by rw [hsplit]; rfl, ?_, hfate, ?_⟩
              · intro m hm
                rcases List.mem_cons.mp hm with rfl | hm
                · exact hgoes
                · exact hall m hm
              · rw [launchServices_goesOn xs s hgoes]
          · rintro ⟨xs, name, ys, hsplit, hall, hfate, rfl⟩
            cases xs with
            | nil => cases hsplit; exact Or.inl ⟨hfate, rfl⟩
            | cons x xs =>
                cases hsplit
                refine Or.inr ⟨xs, name, ys, rfl, (fun m hm => hall m (by simp [hm])), hfate, ?_⟩
                rw [launchServices_goesOn xs s hgoes]

/-- After services that all go on, each has the state its branch leaves. -/
theorem stateIn_launchServices (names : List String) (s : LaunchState) (hnodup : names.Nodup)
    (hall : ∀ m ∈ names, (fates plan force existing answers m).goesOn = true) (m : String) :
    stateIn (launchServices plan false force existing answers names s).1.run m
      = if m ∈ names then (fates plan force existing answers m).leaves (stateIn s.run m)
        else stateIn s.run m := by
  induction names generalizing s with
  | nil => rfl
  | cons n names ih =>
      obtain ⟨hnot, hnodup⟩ := List.nodup_cons.mp hnodup
      have hgoes := hall n (by simp)
      have hspec := launchService_spec (answers n) existing n plan force s
      rw [launchServices_goesOn names s hgoes, ih _ hnodup (fun k hk => hall k (by simp [hk])),
        hspec.states hgoes m]
      by_cases hm : m = n
      · subst hm
        rw [if_neg hnot, if_pos rfl, if_pos (by simp)]
        rfl
      · rw [if_neg hm]
        simp [hm]

end Loop

/-! ## Gating -/

/-- The transitive dependencies of a service within its plan. -/
def DependsOn (plan : StackPlan) : String → String → Prop :=
  Relation.TransGen (fun name dep => dep ∈ depsIn plan.services name)

/-- A dependency stands before its dependents in the plan's order. -/
theorem dependsOn_before {plan : StackPlan} {name dep : String} (h : DependsOn plan name dep)
    {xs ys : List String} (hsplit : plan.order = xs ++ name :: ys) : dep ∈ xs := by
  induction h with
  | single hdep => exact plan.depsFirst xs name ys hsplit _ hdep
  | tail _ hdep ih =>
      obtain ⟨as, bs, rfl⟩ := List.append_of_mem ih
      have hbefore := plan.depsFirst as _ (bs ++ name :: ys) (by rw [hsplit]; simp) _ hdep
      exact List.mem_append_left _ hbefore

theorem dependsOn_mem {plan : StackPlan} {name dep : String} (h : DependsOn plan name dep) :
    dep ∈ plan.services := by
  cases h with
  | single hdep => exact (mem_depsIn.mp hdep).choose_spec.2.2
  | tail _ hdep => exact (mem_depsIn.mp hdep).choose_spec.2.2

/-- A call of `launch_services`: by `up` for a new run, or by `refresh_run`. -/
inductive LaunchCall where
  | create (runId projectDir configDir : String) (baseEnv : BTreeMap String) (now : String)
  | refresh (run : RunRecord) (force : Bool) (baseEnv : BTreeMap String)

def LaunchCall.force : LaunchCall → Bool
  | .create .. => false
  | .refresh _ force _ => force

def LaunchCall.existing : LaunchCall → BTreeMap ExistingServiceSnapshot
  | .create .. => ∅
  | .refresh run _ _ => existingServices run

/-- The run `launch_services` starts from. -/
def LaunchCall.run (plan : StackPlan) : LaunchCall → RunRecord
  | .create runId projectDir configDir baseEnv now =>
      .new runId plan.name projectDir configDir baseEnv now
  | .refresh run _ baseEnv =>
      updateRunLaunchResources
        (removeServicesMissingFromStack run (removedServices run plan)).1 baseEnv

def LaunchCall.launch (call : LaunchCall) (plan : StackPlan) (noWait : Bool)
    (answers : String → LaunchAnswers) : LaunchState × Except String Unit :=
  launchServices plan noWait call.force call.existing answers plan.order
    ⟨call.run plan, [], []⟩

section Gated

variable (call : LaunchCall) (plan : StackPlan) (answers : String → LaunchAnswers)

/-- The snapshot a launch decides by is that of the run it starts from. -/
theorem existing_agrees {name : String} (hname : name ∈ plan.services) :
    (call.existing[name]?).map (·.state) = stateIn (call.run plan) name := by
  cases call with
  | create => simp [LaunchCall.existing, LaunchCall.run, stateIn, RunRecord.new]
  | refresh run force baseEnv =>
      show ((existingServices run)[name]?).map _ = _
      rw [existingServices_get, Option.map_map, stateIn, LaunchCall.run,
        updateRunLaunchResources_services, removeServicesMissingFromStack_services run hname]
      rfl

/-- The branch the launch of a service leaves through. -/
def LaunchCall.fate (name : String) : Fate :=
  fates plan call.force call.existing answers name

/-- The launch of every service before this one goes on. -/
def Reached (name : String) : Prop :=
  ∃ xs ys, plan.order = xs ++ name :: ys
    ∧ ∀ m ∈ xs, (call.fate plan answers m).goesOn = true

/-- The branches that go on without a ready service: an init task failed, the
    unit start failed, or the service is unchanged and still starting. -/
def LeavesUnready (name : String) : Prop :=
  call.fate plan answers name = .initFailed ∨ call.fate plan answers name = .startFailed
    ∨ (call.fate plan answers name = .unchanged
        ∧ (call.existing[name]?).map (·.state) = some .starting)

variable {call plan answers}

theorem startFate_ne_unchanged (answers : LaunchAnswers)
    (existing : BTreeMap ExistingServiceSnapshot) (name : String) (prepared : PreparedService) :
    startFate answers existing name prepared ≠ .unchanged := by
  rw [startFate]
  split
  · decide
  · decide
  · split <;> decide

/-- An unchanged service was ready or starting. -/
theorem unchanged_state {name : String} (h : call.fate plan answers name = .unchanged) :
    (call.existing[name]?).map (·.state) = some .ready
      ∨ (call.existing[name]?).map (·.state) = some .starting := by
  simp only [LaunchCall.fate, fates, fate] at h
  split at h
  next service prepared hget hprep =>
      split at h
      next hskip =>
          have hneeds := hskip.2
          rw [serviceNeedsRestart] at hneeds
          cases hget : call.existing[name]? with
          | none => rw [hget] at hneeds; simp at hneeds
          | some snapshot =>
              rw [hget] at hneeds
              cases hstate : snapshot.state <;> simp_all
      next =>
          split at h
          · exact nomatch h
          · exact absurd h (startFate_ne_unchanged _ _ _ _)
  next => exact nomatch h

/-- What a branch that goes on leaves is `Ready` unless it is one of the three. -/
theorem leaves_ready_iff {name : String} (hname : name ∈ plan.services)
    (hgoes : (call.fate plan answers name).goesOn = true) :
    (call.fate plan answers name).leaves (stateIn (call.run plan) name) = some .ready
      ↔ ¬ LeavesUnready call plan answers name := by
  rw [← existing_agrees call plan hname, LeavesUnready]
  cases hfate : call.fate plan answers name with
  | unchanged =>
      rcases unchanged_state hfate with h | h <;> simp [Fate.leaves, h]
  | initFailed => simp [Fate.leaves]
  | startFailed => simp [Fate.leaves]
  | ready => simp [Fate.leaves]
  | refused => rw [hfate] at hgoes; exact nomatch hgoes
  | releaseFailed => rw [hfate] at hgoes; exact nomatch hgoes
  | proxyFailed => rw [hfate] at hgoes; exact nomatch hgoes
  | notReady => rw [hfate] at hgoes; exact nomatch hgoes

/-- **UNITS ARE STARTED ON READY DEPENDENCIES EXACTLY** when no service that is
    reached and started depends on one that went on unready. -/
theorem launch_gated_iff (call : LaunchCall) (plan : StackPlan)
    (answers : String → LaunchAnswers) :
    (∀ ev ∈ (call.launch plan false answers).1.starts, ∀ dep,
        DependsOn plan ev.service dep → stateIn ev.run dep = some .ready)
      ↔ ∀ name, Reached call plan answers name →
          (call.fate plan answers name).starts = true →
            ∀ dep, DependsOn plan name dep → ¬ LeavesUnready call plan answers dep := by
  have hstate : ∀ xs name ys, plan.order = xs ++ name :: ys →
      (∀ m ∈ xs, (call.fate plan answers m).goesOn = true) →
      ∀ dep, DependsOn plan name dep →
        (stateIn (launchServices plan false call.force call.existing answers xs
            ⟨call.run plan, [], []⟩).1.run dep = some .ready
          ↔ ¬ LeavesUnready call plan answers dep) := by
    intro xs name ys hsplit hall dep hdep
    have hmem : dep ∈ xs := dependsOn_before hdep hsplit
    have hnodup : xs.Nodup := by
      have := plan.nodup
      rw [hsplit] at this
      exact (List.nodup_append.mp this).1
    rw [stateIn_launchServices xs _ hnodup hall, if_pos hmem]
    exact leaves_ready_iff (dependsOn_mem hdep) (hall dep hmem)
  constructor
  · rintro hgated name ⟨xs, ys, hsplit, hall⟩ hstarts dep hdep
    refine (hstate xs name ys hsplit hall dep hdep).mp ?_
    exact hgated ⟨name, call.existing.contains name, _⟩
      ((mem_starts plan.order _ _).mpr
        (Or.inr ⟨xs, name, ys, hsplit, hall, hstarts, rfl⟩)) dep hdep
  · intro hcond ev hev dep hdep
    rcases (mem_starts plan.order _ _).mp hev with hnil | ⟨xs, name, ys, hsplit, hall, hstarts, rfl⟩
    · exact absurd hnil List.not_mem_nil
    · exact (hstate xs name ys hsplit hall dep hdep).mpr
        (hcond name ⟨xs, ys, hsplit, hall⟩ hstarts dep hdep)

end Gated

/-! ## A dependency whose init task fails -/

/-- `api` depends on `db`, which has an init task. -/
def dbApi : BTreeMap ServiceConfig :=
  ((∅ : BTreeMap ServiceConfig).insert "db"
    { ServiceConfig.ofCmd "postgres" [] with init := some ["migrate"] }).insert "api"
    (ServiceConfig.ofCmd "serve" ["db"])

theorem topoSort_dbApi : topoSort dbApi = .ok ["db", "api"] := by decide

def dbApiPlan : StackPlan where
  name := "dev"
  services := dbApi
  order := ["db", "api"]
  depsFirst := (topoSort_depsFirst topoSort_dbApi).1
  nodup := (topoSort_depsFirst topoSort_dbApi).2.1

/-- Everything succeeds but the init task. -/
def migrateFails (name : String) : LaunchAnswers where
  prepared := .ok (.plain name "serve" [])
  init := .error "migrate exited with 1"
  start := .ok ()
  releasePort := .ok ()
  releaseListenPort := .ok ()
  watcher := .ok ()
  watchHandle := 0
  proxy := .ok ()
  captureHandle := 1
  readiness := .ok ()
  detailed := ""
  healthHandle := 2
  startedAt := "2025-01-01T00:00:00Z"
  markedAt := "2025-01-01T00:00:01Z"

/-- `up` on a new run. -/
def dbApiCall : LaunchCall := .create "r1" "/app" "/app" ∅ "2025-01-01T00:00:00Z"

/-- `db` is `Failed` when the unit of `api` is started. -/
theorem starts_on_failed_dependency :
    ∃ ev ∈ (dbApiCall.launch dbApiPlan false migrateFails).1.starts,
      ev.service = "api" ∧ DependsOn dbApiPlan ev.service "db"
        ∧ stateIn ev.run "db" = some .failed := by
  refine ⟨_, (mem_starts dbApiPlan.order _ _).mpr
    (Or.inr ⟨["db"], "api", [], rfl, by decide, by decide, rfl⟩), rfl, ?_, ?_⟩
  · exact Relation.TransGen.single (by decide)
  · rw [stateIn_launchServices ["db"] _ (List.pairwise_singleton _ _) (by decide)]
    decide

end DevstackGating
