import Devstack.Model

/-! # Store operations — service states and the derived run state

    `src/stores/runs.rs` and the record methods of `src/model/service.rs` it
    uses.  `record.set_state` reads the clock, so the instant `now` is an
    argument; an operation that returns an event next to its mutation returns
    the pair. -/

namespace DevstackStores

open DevstackModel

/-- The events of `src/api.rs` the stores and the launch paths emit. -/
inductive DaemonEvent where
  | runCreated (runId : String)
  | runStateChanged (runId : String) (state : RunLifecycle)
  | runRemoved (runId : String)
  | serviceStateChanged (runId service : String) (state : ServiceState)
  | globalStateChanged (key : String) (state : RunLifecycle)
  deriving DecidableEq, Repr

/-- `ServiceRecord::set_state`. -/
def setState (now : String) (record : ServiceRecord) (state : ServiceState) : ServiceRecord :=
  { record with
    runtime :=
      { record.runtime with
        state := state
        lastStartedAt := if state = .ready then some now else record.runtime.lastStartedAt } }

/-- `set_service_state`. -/
def setServiceState (runId service now : String) (record : ServiceRecord)
    (state : ServiceState) : ServiceRecord × Option DaemonEvent :=
  if record.runtime.state = state then (record, none)
  else (setState now record state, some (.serviceStateChanged runId service state))

/-- `record.runtime.last_failure = failure`. -/
def setLastFailure (record : ServiceRecord) (failure : Option String) : ServiceRecord :=
  { record with runtime := { record.runtime with lastFailure := failure } }

section ServiceFields

variable (runId service now : String) (record : ServiceRecord) (state : ServiceState)

@[simp] theorem setServiceState_state :
    (setServiceState runId service now record state).1.runtime.state = state := by
  rw [setServiceState]
  by_cases h : record.runtime.state = state
  · rw [if_pos h]; exact h
  · rw [if_neg h]; rfl

@[simp] theorem setServiceState_lastFailure :
    (setServiceState runId service now record state).1.runtime.lastFailure
      = record.runtime.lastFailure := by
  rw [setServiceState]; split <;> rfl

@[simp] theorem setServiceState_watchPaused :
    (setServiceState runId service now record state).1.runtime.watchPaused
      = record.runtime.watchPaused := by
  rw [setServiceState]; split <;> rfl

@[simp] theorem setServiceState_spec :
    (setServiceState runId service now record state).1.spec = record.spec := by
  rw [setServiceState]; split <;> rfl

@[simp] theorem setServiceState_launch :
    (setServiceState runId service now record state).1.launch = record.launch := by
  rw [setServiceState]; split <;> rfl

@[simp] theorem setServiceState_handles :
    (setServiceState runId service now record state).1.handles = record.handles := by
  rw [setServiceState]; split <;> rfl

/-- No event exactly when nothing changed. -/
theorem setServiceState_event_none :
    (setServiceState runId service now record state).2 = none
      ↔ record.runtime.state = state := by
  rw [setServiceState]
  by_cases h : record.runtime.state = state
  · rw [if_pos h]; exact ⟨fun _ => h, fun _ => rfl⟩
  · rw [if_neg h]; exact ⟨(fun he => nomatch he), fun he => absurd he h⟩

@[simp] theorem setLastFailure_state (failure : Option String) :
    (setLastFailure record failure).runtime.state = record.runtime.state := rfl

@[simp] theorem setLastFailure_lastFailure (failure : Option String) :
    (setLastFailure record failure).runtime.lastFailure = failure := rfl

@[simp] theorem setLastFailure_handles (failure : Option String) :
    (setLastFailure record failure).handles = record.handles := rfl

@[simp] theorem setLastFailure_launch (failure : Option String) :
    (setLastFailure record failure).launch = record.launch := rfl

@[simp] theorem setLastFailure_spec (failure : Option String) :
    (setLastFailure record failure).spec = record.spec := rfl

end ServiceFields

/-! ## The derived run state -/

/-- One turn of the loop over the services: `(all_ready, any_degraded)`. -/
def tallyState : Bool × Bool → ServiceState → Bool × Bool
  | (allReady, anyDegraded), .ready => (allReady, anyDegraded)
  | (_, anyDegraded), .starting => (false, anyDegraded)
  | _, .degraded => (false, true)
  | _, .failed => (false, true)
  | (_, anyDegraded), .stopped => (false, anyDegraded)

/-- The three-way choice made after the loop, with the state `other` for a run
    that is neither degraded nor all ready. -/
def derivedRunState (states : List ServiceState) (other : RunLifecycle) : RunLifecycle :=
  let tally := states.foldl tallyState (true, false)
  if tally.2 then .degraded else if tally.1 then .running else other

/-- The states of a run's services, in key order. -/
def serviceStates (services : BTreeMap ServiceRecord) : List ServiceState :=
  services.toList.map (fun kv => kv.2.runtime.state)

/-- `recompute_run_state`. -/
def recomputeRunState (run : RunRecord) : RunRecord × Option DaemonEvent :=
  if run.state = .stopped then (run, none)
  else
    let state := derivedRunState (serviceStates run.services) .starting
    ({ run with state := state },
      if state ≠ run.state then some (.runStateChanged run.runId state) else none)

private theorem foldl_tallyState (states : List ServiceState) (allReady anyDegraded : Bool) :
    states.foldl tallyState (allReady, anyDegraded)
      = (allReady && states.all (· == .ready),
          anyDegraded || states.any (fun s => s == .degraded || s == .failed)) := by
  induction states generalizing allReady anyDegraded with
  | nil => simp
  | cons s states ih =>
      cases s <;> simp [tallyState, ih, beq_eq_decide]

/-- A run with a degraded or failed service is `Degraded`. -/
theorem derivedRunState_degraded {states : List ServiceState} {other : RunLifecycle}
    (h : .degraded ∈ states ∨ .failed ∈ states) :
    derivedRunState states other = .degraded := by
  have hany : states.any (fun s => s == .degraded || s == .failed) = true := by
    rw [List.any_eq_true]
    rcases h with h | h
    · exact ⟨_, h, rfl⟩
    · exact ⟨_, h, rfl⟩
  simp [derivedRunState, foldl_tallyState, hany]

/-- A run whose services are all ready is `Running`; so is one without services. -/
theorem derivedRunState_running {states : List ServiceState} {other : RunLifecycle}
    (h : ∀ s ∈ states, s = .ready) : derivedRunState states other = .running := by
  have hall : states.all (· == .ready) = true := by
    rw [List.all_eq_true]; intro s hs; rw [h s hs]; rfl
  have hany : states.any (fun s => s == .degraded || s == .failed) = false := by
    rw [List.any_eq_false]; intro s hs; rw [h s hs]; decide
  simp [derivedRunState, foldl_tallyState, hall, hany]

/-- Anything else leaves the choice to the caller. -/
theorem derivedRunState_other {states : List ServiceState} {other : RunLifecycle}
    (hd : .degraded ∉ states ∧ .failed ∉ states) (hr : ∃ s ∈ states, s ≠ .ready) :
    derivedRunState states other = other := by
  have hany : states.any (fun s => s == .degraded || s == .failed) = false := by
    rw [List.any_eq_false]
    intro s hs hbad
    cases s <;> simp_all
  have hall : states.all (· == .ready) = false := by
    obtain ⟨s, hs, hne⟩ := hr
    rw [List.all_eq_false]
    exact ⟨s, hs, by cases s <;> simp_all⟩
  simp [derivedRunState, foldl_tallyState, hall, hany]

/-- `Stopped` is only derived for a run whose state it is, with a service that is
    not ready and none that is degraded or failed. -/
theorem derivedRunState_stopped_iff {states : List ServiceState} {other : RunLifecycle} :
    derivedRunState states other = .stopped
      ↔ other = .stopped ∧ (∃ s ∈ states, s ≠ .ready) ∧ .degraded ∉ states ∧ .failed ∉ states := by
  by_cases hd : .degraded ∈ states ∨ .failed ∈ states
  · rw [derivedRunState_degraded hd]
    refine ⟨(fun h => nomatch h), fun ⟨_, _, hdegraded, hfailed⟩ => ?_⟩
    exact absurd hd (not_or.mpr ⟨hdegraded, hfailed⟩)
  · obtain ⟨hdegraded, hfailed⟩ := not_or.mp hd
    by_cases hr : ∃ s ∈ states, s ≠ .ready
    · rw [derivedRunState_other ⟨hdegraded, hfailed⟩ hr]
      exact ⟨fun h => ⟨h, hr, hdegraded, hfailed⟩, fun h => h.1⟩
    · have hall : ∀ s ∈ states, s = .ready := fun s hs =>
        Classical.byContradiction fun hne => hr ⟨s, hs, hne⟩
      rw [derivedRunState_running hall]
      exact ⟨(fun h => nomatch h), fun h => absurd h.2.1 hr⟩

section RunFields

variable (run : RunRecord)

@[simp] theorem recomputeRunState_services :
    (recomputeRunState run).1.services = run.services := by
  rw [recomputeRunState]; split <;> rfl

@[simp] theorem recomputeRunState_runId :
    (recomputeRunState run).1.runId = run.runId := by
  rw [recomputeRunState]; split <;> rfl

/-- A stopped run is left alone. -/
theorem recomputeRunState_stopped {run : RunRecord} (h : run.state = .stopped) :
    recomputeRunState run = (run, none) := if_pos h

theorem derivedRunState_ne_stopped (states : List ServiceState) :
    derivedRunState states .starting ≠ .stopped := by
  rw [derivedRunState]
  split
  · decide
  · split <;> decide

/-- Recomputing neither stops a run nor wakes a stopped one. -/
@[simp] theorem recomputeRunState_state_stopped :
    (recomputeRunState run).1.state = .stopped ↔ run.state = .stopped := by
  rw [recomputeRunState]
  by_cases h : run.state = .stopped
  · rw [if_pos h]
  · rw [if_neg h]
    exact ⟨fun he => absurd he (derivedRunState_ne_stopped _), fun he => absurd he h⟩

end RunFields

end DevstackStores
