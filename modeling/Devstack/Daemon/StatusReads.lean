import Devstack.Daemon.System

/-! # Status reads — what a status request writes back

    A status request copies the run, reads the units and writes the states it
    derived into the run as it is by then.  The write puts the copy's derived
    standing in place of the present one (`reconcile_services`); it amounts to the
    unit-status rule on the present standing when the copy still agrees with it
    (`Agrees`), and it leaves a stopped run stopped when the copy was stopped with
    some service and none `Degraded`, `Failed` or all `Ready`. -/

namespace DevstackStatusReads

open DevstackModel DevstackStores DevstackReadiness DevstackConfig DevstackStatus
open DevstackLocked DevstackWorld DevstackTasks DevstackSystem DevstackInterleaving
open DevstackMachine

/-! ## What a write should do -/

/-- A write that changes a service only by the rule, as the run and the service
    are at the write, and leaves a stopped run stopped. -/
structure AppliesRule (unitStatus : String → Option UnitStatus) (before after : RunRecord) :
    Prop where
  services : ∀ (name : String) (record : ServiceRecord), before.services[name]? = some record →
    standingIn after name = some (standing record)
      ∨ standingIn after name
        = some (unitRule before.state (unitStatus record.launch.unitName) (standing record))
  stopped : before.state = .stopped → after.state = .stopped

/-- The steps that write a status apply the rule. -/
def NoLostUpdate (s : Sys) : Action → Prop
  | .run position env =>
      ∀ run copy k before after, s.2[position]? = some (.writeStatus run copy k) →
        s.1.runs[run]? = some before →
        (sysStep s (.run position env)).1.runs[run]? = some after →
          AppliesRule env.unitStatus before after
  | _ => True

/-! ## When it does -/

/-- Whether the rule changes anything. -/
def ruleActs (runState : RunLifecycle) : Option UnitStatus → Bool
  | some unit => decide (runState ≠ .stopped) && unitFailing unit
  | none => false

/-- What it makes of a standing then. -/
def failing (unit : Option UnitStatus) (s : Standing) : Standing :=
  (failingState s.1, (unit.map (fun unit => failingFailure unit s.2)).getD s.2)

/-- What the copy has of a service against what the run has at the write, by
    whether the rule acts on the one and on the other. -/
def Agrees (oldActs nowActs : Bool) (oldUnit nowUnit : Option UnitStatus) (old now : Standing) :
    Prop :=
  match oldActs, nowActs with
  | false, false => old = now
  | false, true => old = now ∨ old = failing nowUnit now
  | true, false => failing oldUnit old = now
  | true, true => failing oldUnit old = now ∨ failing oldUnit old = failing nowUnit now

/-- A copy that still holds at the write: it agrees on every service, and if the
    run is stopped by then, so was the copy, with a service that was not `Ready`
    and none that was `Degraded` or `Failed`. -/
structure CopyHolds (unitStatus : String → Option UnitStatus) (copy before : RunRecord) :
    Prop where
  services : ∀ (name : String) (old now : ServiceRecord), copy.services[name]? = some old →
    before.services[name]? = some now →
      Agrees (ruleActs copy.state (unitStatus old.launch.unitName))
        (ruleActs before.state (unitStatus now.launch.unitName))
        (unitStatus old.launch.unitName) (unitStatus now.launch.unitName)
        (standing old) (standing now)
  stopped : before.state = .stopped → copy.state = .stopped
    ∧ (∃ (name : String) (old : ServiceRecord), copy.services[name]? = some old
        ∧ old.runtime.state ≠ .ready)
    ∧ ∀ (name : String) (old : ServiceRecord), copy.services[name]? = some old →
        old.runtime.state ≠ .degraded ∧ old.runtime.state ≠ .failed

/-- A status is only written from a copy that holds. -/
def WritesFresh (s : Sys) : Action → Prop
  | .run position env =>
      ∀ run copy k before, s.2[position]? = some (.writeStatus run copy k) →
        s.1.runs[run]? = some before → CopyHolds env.unitStatus copy before
  | _ => True

section Rule

variable (unitStatus : String → Option UnitStatus)

theorem unitRule_acts (runState : RunLifecycle) (unit : Option UnitStatus) (s : Standing) :
    unitRule runState unit s = if ruleActs runState unit = true then failing unit s else s := by
  cases unit with
  | none => rfl
  | some unit => simp [unitRule, ruleActs, failing]

/-- The derived standing is the present one, or what the rule makes of it,
    exactly when copy and run agree. -/
theorem agrees_iff (copyState nowState : RunLifecycle) (oldUnit nowUnit : Option UnitStatus)
    (old now : Standing) :
    (unitRule copyState oldUnit old = now ∨ unitRule copyState oldUnit old
        = unitRule nowState nowUnit now)
      ↔ Agrees (ruleActs copyState oldUnit) (ruleActs nowState nowUnit) oldUnit nowUnit old now := by
  rw [unitRule_acts, unitRule_acts]
  cases ruleActs copyState oldUnit with
  | false =>
      cases ruleActs nowState nowUnit with
      | false => simp [Agrees]
      | true => simp [Agrees]
  | true =>
      cases ruleActs nowState nowUnit with
      | false => simp [Agrees]
      | true => simp [Agrees]

theorem serviceStatus_stopped (record : ServiceRecord) :
    (serviceStatus unitStatus .stopped record).state = record.runtime.state :=
  congrArg Prod.fst (unitRule_stopped (unitStatus record.launch.unitName) (standing record))

/-- The state derived from a copy is `Stopped` for a stopped one only. -/
theorem buildStatus_state_stopped {copy : RunRecord} :
    (buildStatus unitStatus copy).state = .stopped
      ↔ copy.state = .stopped
        ∧ (∃ (name : String) (old : ServiceRecord), copy.services[name]? = some old
            ∧ old.runtime.state ≠ .ready)
        ∧ ∀ (name : String) (old : ServiceRecord), copy.services[name]? = some old →
            old.runtime.state ≠ .degraded ∧ old.runtime.state ≠ .failed := by
  have hmem : ∀ st, copy.state = .stopped →
      (st ∈ (buildStatus unitStatus copy).services.toList.map (fun kv => kv.2.state)
        ↔ ∃ (name : String) (old : ServiceRecord), copy.services[name]? = some old
            ∧ old.runtime.state = st) := by
    intro st hcopy
    simp only [List.mem_map, Prod.exists, Std.ExtTreeMap.mem_toList_iff_getElem?_eq_some,
      buildStatus_get, Option.map_eq_some_iff]
    constructor
    · rintro ⟨name, status, ⟨old, hold, rfl⟩, hstate⟩
      refine ⟨name, old, hold, ?_⟩
      rw [← hstate, hcopy]
      exact (serviceStatus_stopped unitStatus old).symm
    · rintro ⟨name, old, hold, hstate⟩
      refine ⟨name, _, ⟨old, hold, rfl⟩, ?_⟩
      rw [← hstate, hcopy]
      exact serviceStatus_stopped unitStatus old
  show derivedRunState _ copy.state = .stopped ↔ _
  rw [derivedRunState_stopped_iff]
  refine and_congr_right fun hcopy => ?_
  refine and_congr ?_ ?_
  · constructor
    · rintro ⟨st, hst, hne⟩
      obtain ⟨name, old, hold, rfl⟩ := (hmem st hcopy).mp hst
      exact ⟨name, old, hold, hne⟩
    · rintro ⟨name, old, hold, hne⟩
      exact ⟨_, (hmem _ hcopy).mpr ⟨name, old, hold, rfl⟩, hne⟩
  · constructor
    · rintro ⟨hdegraded, hfailed⟩ name old hold
      refine ⟨fun h => hdegraded ?_, fun h => hfailed ?_⟩
      · exact (hmem _ hcopy).mpr ⟨name, old, hold, h⟩
      · exact (hmem _ hcopy).mpr ⟨name, old, hold, h⟩
    · intro hnone
      refine ⟨fun h => ?_, fun h => ?_⟩
      · obtain ⟨name, old, hold, hstate⟩ := (hmem _ hcopy).mp h
        exact (hnone name old hold).1 hstate
      · obtain ⟨name, old, hold, hstate⟩ := (hmem _ hcopy).mp h
        exact (hnone name old hold).2 hstate

/-- **A STATUS WRITE APPLIES THE RULE** exactly when its copy holds. -/
theorem appliesRule_iff (copy before : RunRecord) :
    AppliesRule unitStatus before (reconcile (buildStatus unitStatus copy) before)
      ↔ CopyHolds unitStatus copy before := by
  have hafter : ∀ name, standingIn (reconcile (buildStatus unitStatus copy) before) name = _ :=
    reconcile_services unitStatus copy before
  constructor
  · rintro ⟨hservices, hstopped⟩
    refine ⟨fun name old now hold hnow => ?_, fun h => ?_⟩
    · refine (agrees_iff _ _ _ _ _ _).mp ?_
      have hnamed := hservices name now hnow
      rw [hafter, hnow, hold] at hnamed
      exact hnamed.imp Option.some.inj Option.some.inj
    · exact (buildStatus_state_stopped unitStatus).mp (hstopped h)
  · rintro ⟨hservices, hstopped⟩
    refine ⟨fun name now hnow => ?_, fun h => ?_⟩
    · rw [hafter, hnow]
      cases hold : copy.services[name]? with
      | none => exact Or.inl rfl
      | some old =>
          exact ((agrees_iff _ _ _ _ _ _).mpr (hservices name old now hold hnow)).imp
            (congrArg some) (congrArg some)
    · exact (buildStatus_state_stopped unitStatus).mpr (hstopped h)

end Rule

/-! ## Whole runs -/

/-- A step of the daemon loses no update exactly when what it writes is fresh. -/
theorem noLostUpdate_iff (s : Sys) (a : Action) : NoLostUpdate s a ↔ WritesFresh s a := by
  cases a with
  | request r => exact Iff.rfl
  | daemonRestart answers => exact Iff.rfl
  | run position env =>
      have hafter : ∀ run copy k before,
          s.2[position]? = some (.writeStatus run copy k) → s.1.runs[run]? = some before →
            (sysStep s (.run position env)).1.runs[run]?
              = some (reconcile (buildStatus env.unitStatus copy) before) := by
        intro run copy k before hget hrun
        show (stepAt Task.step s (position, env)).1.runs[run]? = _
        rw [stepAt_some Task.step hget]
        simp [Task.step, hrun, World.lock, RunOp.apply]
      constructor
      · intro hlost run copy k before hget hrun
        exact (appliesRule_iff env.unitStatus copy before).mp
          (hlost run copy k before _ hget hrun (hafter run copy k before hget hrun))
      · intro hfresh run copy k before after hget hrun hnext
        rw [hafter run copy k before hget hrun] at hnext
        rw [← Option.some.inj hnext]
        exact (appliesRule_iff env.unitStatus copy before).mpr
          (hfresh run copy k before hget hrun)

/-- **STATUS READS LOSE NO UPDATE** in a run of the daemon exactly when every
    status of it is written from a copy that holds. -/
theorem status_loses_no_update_iff (acts : List Action) :
    Along sysStep NoLostUpdate start acts ↔ Along sysStep WritesFresh start acts := by
  have hstep : ∀ s a, True → (NoLostUpdate s a ↔ WritesFresh s a) :=
    fun s a _ => noLostUpdate_iff s a
  exact along_congr sysStep hstep (fun _ _ _ _ => trivial) acts start trivial

theorem topoSort_empty : topoSort ∅ = .ok [] := by decide

/-- A stack without services. -/
def emptyPlan : StackPlan where
  name := "dev"
  services := ∅
  order := []
  depsFirst := (topoSort_depsFirst topoSort_empty).1
  nodup := (topoSort_depsFirst topoSort_empty).2.1

/-- A status request copies the run while the service is `Starting`; then the
    readiness wait makes it `Ready`. -/
def copiedStarting : List Action :=
  upWeb ++ [.request (.status "dev-1"), .run 1 smooth, .run 0 smooth]

/-- `up` and `down` of the empty stack, and a status request that copies the run. -/
def copiedEmpty : List Action :=
  [.request (.up ⟨"dev", "/app", none, true, false, false⟩),
      .run 0 { smooth with requested := .ok (emptyPlan, "/app", []) }]
    ++ List.replicate 6 (.run 0 smooth)
    ++ .request (.down "dev-1" false) :: List.replicate 7 (.run 0 smooth)
    ++ [.request (.status "dev-1"), .run 0 smooth]

/-- The first request writes `Starting` over `Ready`, the second makes a stopped
    run `Running`. -/
theorem status_overwrites :
    ¬ Along sysStep NoLostUpdate start (copiedStarting ++ [.run 2 smooth])
      ∧ ¬ Along sysStep NoLostUpdate start (copiedEmpty ++ [.run 0 smooth]) := by
  constructor
  · intro h
    have hlast := ((along_append sysStep _ start copiedStarting _).mp h).2.1
    have hrule := hlast "dev-1" _ _ _ _ rfl rfl rfl
    have hweb := hrule.services "web" _ rfl
    revert hweb
    decide
  · intro h
    have hlast := ((along_append sysStep _ start copiedEmpty _).mp h).2.1
    have hrule := hlast "dev-1" _ _ _ _ rfl rfl rfl
    have hstopped := hrule.stopped
    revert hstopped
    decide

end DevstackStatusReads
