import Devstack.UnitTable

/-! # Restarting a unit — what became of it in the meantime

    `restart_unit` of `LocalSystemd` in `src/systemd.rs`.  The properties of a unit are
    kept with it in the table and nowhere else.  The reaper takes a unit out once its
    child has exited, and so do a stop and a kill; a restart that comes after them finds
    nothing and returns `Ok`.

    The units of `UnitTable` are given their properties here; `plain_step`: without them
    the manager is that of `UnitTable`.

    * `restarts_iff`: a restart that returns `Ok` leaves the unit with a new process of
      its last properties exactly if it has found the unit in the table;
    * `missed_restarts`: runs where it does not. -/

namespace DevstackRestartUnit

open DevstackModel DevstackMachine DevstackInterleaving
open DevstackUnitTable (TrackedUnit ProcessGroup ProcessDeed Answers Wait World stopAndReap
  stopAndReap_signals reapUnit statusUnit)

-- ── systemd.rs ────────────────────────────────────────────────────────────────

structure ExecStart where
  path : String
  argv : List String
  ignoreFailure : Bool
  deriving DecidableEq

structure UnitProperties where
  description : String
  workingDirectory : String
  environment : List String
  execStart : ExecStart
  killMode : String
  killSignal : Int
  timeoutStopUsec : Nat
  sendSigkill : Bool
  restart : String
  restartUsec : Nat
  startLimitIntervalUsec : Nat
  startLimitBurst : Nat
  remainAfterExit : Bool
  deriving DecidableEq

/-- `UnitProperties::new`. -/
def UnitProperties.new (description workingDirectory : String) (environment : List String)
    (execStart : ExecStart) : UnitProperties where
  description := description
  workingDirectory := workingDirectory
  environment := environment
  execStart := execStart
  killMode := "control-group"
  killSignal := 2
  timeoutStopUsec := 2000000
  sendSigkill := true
  restart := "on-failure"
  restartUsec := 250000
  startLimitIntervalUsec := 30000000
  startLimitBurst := 20
  remainAfterExit := false

/-- What a process runs. -/
structure Command where
  path : String
  args : List String
  currentDir : String
  env : List (String × String)
  deriving DecidableEq

/-- `split_once('=')`. -/
def splitOnce (item : String) : Option (String × String) :=
  match item.toList.dropWhile (· ≠ '=') with
  | [] => none
  | _ :: value => some (String.ofList (item.toList.takeWhile (· ≠ '=')), String.ofList value)

/-- The command of `spawn_child`. -/
def UnitProperties.command (props : UnitProperties) : Command where
  path := props.execStart.path
  args :=
    if props.execStart.argv.head? = some props.execStart.path then props.execStart.argv.tail
    else props.execStart.argv
  currentDir := props.workingDirectory
  env := props.environment.filterMap splitOnce

/-- `LocalUnit`. -/
structure LocalUnit where
  props : UnitProperties
  child : Bool
  pgid : Nat
  lastStatus : Bool
  deriving DecidableEq

/-- The unit without its properties. -/
def LocalUnit.tracked (unit : LocalUnit) : TrackedUnit :=
  ⟨⟨unit.props.remainAfterExit, unit.child, unit.lastStatus⟩, unit.pgid⟩

/-- The unit with what is left of it. -/
def LocalUnit.left (unit : LocalUnit) (tracked : TrackedUnit) : LocalUnit :=
  { unit with child := tracked.child, lastStatus := tracked.lastStatus }

/-- A process that was spawned for a unit. -/
structure Spawned where
  name : String
  pid : Nat
  command : Command
  deriving DecidableEq

/-- `stopped`, `started` and `spawned` are kept for the statements: the properties of the
    last start of a unit that has returned `Ok`, and all processes in order. -/
structure Manager where
  units : BTreeMap LocalUnit
  groups : Std.ExtTreeMap Nat ProcessGroup
  stopped : List String
  started : BTreeMap UnitProperties
  spawned : List Spawned

def Manager.world (m : Manager) : World :=
  ⟨m.units.map (fun _ unit => unit.tracked), m.groups, m.stopped⟩

inductive Op where
  | start (props : UnitProperties)
  | stop
  | restart
  | kill (signal : Int)
  deriving DecidableEq

def Op.plain : Op → DevstackUnitTable.Op
  | .start props => .start props.remainAfterExit
  | .stop => .stop
  | .restart => .restart
  | .kill signal => .kill signal

inductive Stage where
  | called
  | stopping (unit : LocalUnit) (wait : Wait)
  | spawning (props : UnitProperties)
  | inserting (unit : LocalUnit)
  | returned (ok : Bool)
  deriving DecidableEq

/-- A call; `since` is how many processes there had been when it was made. -/
structure Call where
  op : Op
  name : String
  since : Nat
  stage : Stage
  deriving DecidableEq

namespace Manager

def begin (m : Manager) (op : Op) (name : String) : Manager :=
  { m with stopped := (m.world.begin op.plain name).stopped }

def returnOk (m : Manager) (op : Op) (name : String) : Manager :=
  { m with stopped := (m.world.returnOk op.plain name).stopped }

/-- The unit goes into the table. -/
def insert (m : Manager) (op : Op) (name : String) (unit : LocalUnit) : Manager :=
  { m with
    units := m.units.insert name unit
    started :=
      match op with
      | .start props => m.started.insert name props
      | _ => m.started }

/-- A child of the properties. -/
def spawn (m : Manager) (name : String) (props : UnitProperties) (pid : Nat) : Manager :=
  { m with
    groups := m.groups.insert pid ⟨name, true, false⟩
    spawned := m.spawned ++ [⟨name, pid, props.command⟩] }

end Manager

def Call.goto (c : Call) (stage : Stage) : Call := { c with stage := stage }

/-- A call between two awaits. -/
def Call.step (answers : Answers) (m : Manager) (c : Call) : Manager × List Call :=
  match c.stage with
  | .called =>
      match m.units[c.name]? with
      | some unit =>
          ({ m with units := m.units.erase c.name }, [c.goto (.stopping unit .signalling)])
      | none =>
          match c.op with
          | .start props => (m, [c.goto (.spawning props)])
          | _ => (m.returnOk c.op c.name, [c.goto (.returned true)])
  | .stopping _ (.done false) => (m, [c.goto (.returned false)])
  | .stopping unit (.done true) =>
      match c.op with
      | .start props => (m, [c.goto (.spawning props)])
      | .restart => (m, [c.goto (.spawning unit.props)])
      | _ => (m.returnOk c.op c.name, [c.goto (.returned true)])
  | .stopping unit wait =>
      let next := stopAndReap answers m.world unit.tracked c.op.plain.signal wait
      ({ m with groups := next.1.groups }, [c.goto (.stopping unit next.2)])
  | .spawning props =>
      match answers.pid with
      | none => (m, [c.goto (.returned false)])
      | some pid =>
          if pid ∈ m.groups then (m, [c.goto (.returned false)])
          else (m.spawn c.name props pid, [c.goto (.inserting ⟨props, true, pid, false⟩)])
  | .inserting unit => (m.insert c.op c.name unit, [c.goto (.returned true)])
  | .returned _ => (m, [c])

-- ── the system ────────────────────────────────────────────────────────────────

abbrev State := Manager × List Call

inductive Action where
  | call (op : Op) (name : String)
  | step (position : Nat) (answers : Answers)
  | deed (pgid : Nat) (does : ProcessDeed)
  | reap (name : String) (answers : Answers)
  | status (name : String) (answers : Answers)

def unitStep (s : State) : Action → State
  | .call op name => (s.1.begin op name, s.2 ++ [⟨op, name, s.1.spawned.length, .called⟩])
  | .step position answers => stepAt Call.step s (position, answers)
  | .deed pgid does =>
      ({ s.1 with groups := s.1.groups.alter pgid (·.bind (·.act does)) }, s.2)
  | .reap name answers =>
      ({ s.1 with units := s.1.units.alter name (·.bind fun unit =>
          (reapUnit answers s.1.world unit.tracked).map unit.left) }, s.2)
  | .status name answers =>
      ({ s.1 with units := s.1.units.alter name (·.bind fun unit =>
          (statusUnit answers s.1.world unit.tracked).map unit.left) }, s.2)

/-- A manager that has just been opened: no call is under way, and the units of its
    registry have the properties of their last start. -/
structure Opened (s : State) : Prop where
  idle : s.2 = []
  loaded : ∀ (name : String) (unit : LocalUnit), s.1.units[name]? = some unit →
    s.1.started[name]? = some unit.props

-- ── what is asked of it ───────────────────────────────────────────────────────

namespace Call

def inProgress (c : Call) : Bool :=
  match c.stage with
  | .returned _ => false
  | _ => true

/-- The properties of the unit in the hands of the call. -/
def holds (c : Call) : Option UnitProperties :=
  match c.stage with
  | .stopping unit _ | .inserting unit => some unit.props
  | .spawning props => some props
  | _ => none

/-- The properties of a start that is about to return `Ok`. -/
def completes (c : Call) : Option UnitProperties :=
  match c.op, c.stage with
  | .start props, .inserting _ => some props
  | _, _ => none

end Call

/-- If the unit was ever started, it is in the table with the properties of its last start
    and a process of them that is not among the first `since`. -/
def Runs (m : Manager) (name : String) (since : Nat) : Prop :=
  ∀ props, m.started[name]? = some props →
    ∃ unit, m.units[name]? = some unit ∧ unit.props = props ∧ unit.child = true
      ∧ ⟨name, unit.pgid, props.command⟩ ∈ m.spawned.drop since

/-- A restart that returns `Ok` at this step has restarted its unit. -/
def Restarts (s : State) (a : Action) : Prop :=
  match a with
  | .step position _ =>
      ∀ c ∈ s.2[position]?, c.op = .restart → c.inProgress = true →
        (unitStep s a).2[position]? = some (c.goto (.returned true)) →
        Runs (unitStep s a).1 c.name c.since
  | _ => True

/-- A restart of a unit that was ever started finds it in the table. -/
def Found (s : State) : Action → Prop
  | .step position _ =>
      ∀ c ∈ s.2[position]?, c.op = .restart → c.stage = .called → c.name ∈ s.1.started →
        c.name ∈ s.1.units
  | _ => True

/-- No start with other properties returns `Ok` while a restart has the unit. -/
def Apart (s : State) : Action → Prop
  | .step position _ =>
      ∀ c ∈ s.2[position]?, ∀ props ∈ c.completes, ∀ d ∈ s.2, d.op = .restart →
        d.name = c.name → ∀ held ∈ d.holds, held = props
  | _ => True

-- ── the manager without properties ────────────────────────────────────────────

def Call.plain (c : Call) : DevstackUnitTable.Call :=
  ⟨c.op.plain, c.name,
    match c.stage with
    | .called => .called
    | .stopping unit wait => .stopping unit.tracked wait
    | .spawning props => .spawning props.remainAfterExit
    | .inserting unit => .inserting unit.tracked
    | .returned ok => .returned ok⟩

def Action.plain : Action → DevstackUnitTable.Action
  | .call op name => .call op.plain name
  | .step position answers => .step position answers
  | .deed pgid does => .deed pgid does
  | .reap name answers => .reap name answers
  | .status name answers => .status name answers

def plain (s : State) : DevstackUnitTable.State := (s.1.world, s.2.map Call.plain)

theorem world_getElem? (m : Manager) (name : String) :
    m.world.units[name]? = (m.units[name]?).map LocalUnit.tracked := Std.ExtTreeMap.getElem?_map

/-- What is left of a unit keeps its group, and its properties say what they said. -/
theorem tracked_left {unit : LocalUnit} {left : TrackedUnit} (hpgid : left.pgid = unit.pgid)
    (hremain : left.remainAfterExit = unit.props.remainAfterExit) :
    (unit.left left).tracked = left := by
  obtain ⟨⟨remainAfterExit, child, lastStatus⟩, pgid⟩ := left
  obtain rfl : pgid = unit.pgid := hpgid
  obtain rfl : remainAfterExit = unit.props.remainAfterExit := hremain
  rfl

theorem reapUnit_same {answers : Answers} {w : World} {unit left : TrackedUnit}
    (h : reapUnit answers w unit = some left) :
    left.pgid = unit.pgid ∧ left.remainAfterExit = unit.remainAfterExit := by
  rw [reapUnit] at h
  split at h
  · split at h
    · cases h
    · split at h
      · split at h
        · obtain rfl := Option.some.inj h
          exact ⟨rfl, rfl⟩
        · cases h
      · obtain rfl := Option.some.inj h
        exact ⟨rfl, rfl⟩
  · split at h
    · obtain rfl := Option.some.inj h
      exact ⟨rfl, rfl⟩
    · cases h

theorem statusUnit_same {answers : Answers} {w : World} {unit left : TrackedUnit}
    (h : statusUnit answers w unit = some left) :
    left.pgid = unit.pgid ∧ left.remainAfterExit = unit.remainAfterExit := by
  rw [statusUnit] at h
  split at h
  · split at h
    · obtain rfl := Option.some.inj h
      exact ⟨rfl, rfl⟩
    · split at h
      · obtain rfl := Option.some.inj h
        exact ⟨rfl, rfl⟩
      · obtain rfl := Option.some.inj h
        exact ⟨rfl, rfl⟩
  · split at h
    · obtain rfl := Option.some.inj h
      exact ⟨rfl, rfl⟩
    · cases h

/-- A unit that is altered without a call. -/
theorem world_alter (m : Manager) (name : String) {f : TrackedUnit → Option TrackedUnit}
    (hf : ∀ unit left, f unit = some left →
      left.pgid = unit.pgid ∧ left.remainAfterExit = unit.remainAfterExit) :
    Manager.world { m with units := m.units.alter name (·.bind fun unit =>
        (f unit.tracked).map unit.left) }
      = { m.world with units := m.world.units.alter name (·.bind f) } := by
  refine congrArg (fun units => World.mk units m.groups m.stopped) ?_
  show _ = (m.units.map (fun _ unit => unit.tracked)).alter name (·.bind f)
  refine Std.ExtTreeMap.ext_getElem? fun other => ?_
  rw [Std.ExtTreeMap.getElem?_map, Std.ExtTreeMap.getElem?_alter, Std.ExtTreeMap.getElem?_alter,
    Std.ExtTreeMap.getElem?_map, Std.ExtTreeMap.getElem?_map]
  split
  · cases m.units[name]? with
    | none => rfl
    | some unit =>
        show ((f unit.tracked).map unit.left).map LocalUnit.tracked = f unit.tracked
        cases hleft : f unit.tracked with
        | none => rfl
        | some left =>
            obtain ⟨hpgid, hremain⟩ := hf _ _ hleft
            exact congrArg some (tracked_left hpgid hremain)
  · rfl

theorem map_erase (units : BTreeMap LocalUnit) (name : String) :
    (units.erase name).map (fun _ unit => unit.tracked)
      = (units.map (fun _ unit => unit.tracked)).erase name := by
  refine Std.ExtTreeMap.ext_getElem? fun other => ?_
  rw [Std.ExtTreeMap.getElem?_map, Std.ExtTreeMap.getElem?_erase, Std.ExtTreeMap.getElem?_erase,
    Std.ExtTreeMap.getElem?_map]
  split <;> rfl

theorem map_insert (units : BTreeMap LocalUnit) (name : String) (unit : LocalUnit) :
    (units.insert name unit).map (fun _ unit => unit.tracked)
      = (units.map (fun _ unit => unit.tracked)).insert name unit.tracked := by
  refine Std.ExtTreeMap.ext_getElem? fun other => ?_
  rw [Std.ExtTreeMap.getElem?_map, Std.ExtTreeMap.getElem?_insert,
    Std.ExtTreeMap.getElem?_insert, Std.ExtTreeMap.getElem?_map]
  split <;> rfl

theorem world_erase (m : Manager) (name : String) :
    Manager.world { m with units := m.units.erase name }
      = { m.world with units := m.world.units.erase name } :=
  congrArg (fun units => World.mk units m.groups m.stopped) (map_erase m.units name)

theorem world_insert (m : Manager) (op : Op) (name : String) (unit : LocalUnit) :
    (m.insert op name unit).world
      = { m.world with units := m.world.units.insert name unit.tracked } :=
  congrArg (fun units => World.mk units m.groups m.stopped) (map_insert m.units name unit)

theorem world_begin (m : Manager) (op : Op) (name : String) :
    (m.begin op name).world = m.world.begin op.plain name := by
  rw [Manager.begin, World.begin]
  split <;> rfl

theorem world_returnOk (m : Manager) (op : Op) (name : String) :
    (m.returnOk op name).world = m.world.returnOk op.plain name := by
  rw [Manager.returnOk, World.returnOk]
  split <;> rfl

/-- A wait changes groups only. -/
theorem world_wait (answers : Answers) (m : Manager) (unit : TrackedUnit) (signal : Int)
    (wait : Wait) :
    Manager.world { m with groups := (stopAndReap answers m.world unit signal wait).1.groups }
      = (stopAndReap answers m.world unit signal wait).1 := by
  have hsignals := stopAndReap_signals answers m.world unit signal wait
  have hunits : (stopAndReap answers m.world unit signal wait).1.units
      = m.units.map (fun _ unit => unit.tracked) := hsignals.units
  have hstopped : (stopAndReap answers m.world unit signal wait).1.stopped = m.stopped :=
    hsignals.stopped
  rw [Manager.world, ← hunits, ← hstopped]

/-- The step of a call. -/
theorem plain_call (answers : Answers) (m : Manager) (c : Call) :
    c.plain.step answers m.world
      = ((c.step answers m).1.world, (c.step answers m).2.map Call.plain) := by
  obtain ⟨op, name, since, stage⟩ := c
  cases stage with
  | returned ok => rfl
  | inserting unit =>
      rw [Call.step, world_insert]
      rfl
  | spawning props =>
      simp only [Call.step, Call.plain, DevstackUnitTable.Call.step]
      cases answers.pid with
      | none => rfl
      | some pid =>
          by_cases hpid : pid ∈ m.groups
          · simp only [if_pos hpid]
            exact if_pos hpid
          · simp only [if_neg hpid]
            exact if_neg hpid
  | called =>
      simp only [Call.step, Call.plain, DevstackUnitTable.Call.step]
      rw [world_getElem?]
      cases m.units[name]? with
      | some unit => exact Prod.ext (world_erase m name).symm rfl
      | none =>
          cases op with
          | start props => rfl
          | stop => exact Prod.ext (world_returnOk m .stop name).symm rfl
          | restart => exact Prod.ext (world_returnOk m .restart name).symm rfl
          | kill signal => exact Prod.ext (world_returnOk m (.kill signal) name).symm rfl
  | stopping unit wait =>
      cases wait with
      | done ok =>
          cases ok with
          | false => rfl
          | true =>
              cases op with
              | start props => rfl
              | restart => rfl
              | stop => exact Prod.ext (world_returnOk m .stop name).symm rfl
              | kill signal => exact Prod.ext (world_returnOk m (.kill signal) name).symm rfl
      | signalling | waiting | waitingKilled | polling | pollingKilled =>
          exact Prod.ext
            (world_wait answers m unit.tracked (Op.plain _).signal _).symm rfl

/-- **THE MANAGER OF `UnitTable`**: one step of it, without the properties. -/
theorem plain_step (s : State) (a : Action) :
    plain (unitStep s a) = DevstackUnitTable.unitStep (plain s) a.plain := by
  cases a with
  | call op name =>
      exact Prod.ext (world_begin s.1 op name) (List.map_append (f := Call.plain))
  | deed pgid does => rfl
  | reap name answers =>
      exact Prod.ext (world_alter s.1 name fun _ _ => reapUnit_same) rfl
  | status name answers =>
      exact Prod.ext (world_alter s.1 name fun _ _ => statusUnit_same) rfl
  | step position answers =>
      have hget : (plain s).2[position]? = (s.2[position]?).map Call.plain := List.getElem?_map
      cases hc : s.2[position]? with
      | none =>
          rw [hc] at hget
          rw [unitStep, stepAt_none Call.step hc, Action.plain, DevstackUnitTable.unitStep,
            stepAt_none DevstackUnitTable.Call.step hget]
      | some c =>
          rw [hc] at hget
          rw [unitStep, stepAt_some Call.step hc, Action.plain, DevstackUnitTable.unitStep,
            stepAt_some DevstackUnitTable.Call.step hget]
          refine Prod.ext ?_ ?_
          · exact (congrArg Prod.fst (plain_call answers s.1 c)).symm
          · show List.map Call.plain _ = _
            rw [List.map_append, List.map_append, List.map_take, List.map_drop]
            exact congrArg (fun stepped => _ ++ stepped ++ _)
              (congrArg Prod.snd (plain_call answers s.1 c)).symm

/-- A run of the manager is one of `UnitTable`. -/
theorem run_plain (s : State) (as : List Action) :
    plain (run unitStep s as) = run DevstackUnitTable.unitStep (plain s) (as.map Action.plain) := by
  induction as generalizing s with
  | nil => rfl
  | cons a as ih => rw [run_cons, ih, plain_step, List.map_cons, run_cons]

-- ── one step of a call ────────────────────────────────────────────────────────

namespace Call

/-- What a step of a call does. -/
inductive Moves (m : Manager) (c : Call) : Manager → Call → Prop
  | take {unit : LocalUnit} (hstage : c.stage = .called) (hunit : m.units[c.name]? = some unit) :
      Moves m c { m with units := m.units.erase c.name } (c.goto (.stopping unit .signalling))
  | absent (hstage : c.stage = .called) (hop : c.op = .restart) (hunit : m.units[c.name]? = none) :
      Moves m c (m.returnOk c.op c.name) (c.goto (.returned true))
  | wait {unit : LocalUnit} {wait wait' : Wait} {groups : Std.ExtTreeMap Nat ProcessGroup}
      (hstage : c.stage = .stopping unit wait) :
      Moves m c { m with groups := groups } (c.goto (.stopping unit wait'))
  | launch {props : UnitProperties} (hop : c.op = .start props) :
      Moves m c m (c.goto (.spawning props))
  | relaunch {unit : LocalUnit} {wait : Wait} (hstage : c.stage = .stopping unit wait)
      (hop : c.op = .restart) : Moves m c m (c.goto (.spawning unit.props))
  | spawn {props : UnitProperties} (pid : Nat) (hstage : c.stage = .spawning props) :
      Moves m c (m.spawn c.name props pid) (c.goto (.inserting ⟨props, true, pid, false⟩))
  | insert {unit : LocalUnit} (hstage : c.stage = .inserting unit) :
      Moves m c (m.insert c.op c.name unit) (c.goto (.returned true))
  | fail (hstage : c.stage ≠ .called) : Moves m c m (c.goto (.returned false))
  | succeed (hop : c.op ≠ .restart) :
      Moves m c (m.returnOk c.op c.name) (c.goto (.returned true))
  | rest (hstage : c.inProgress = false) : Moves m c m c

theorem step_moves (answers : Answers) (m : Manager) (c : Call) :
    ∃ m' c', c.step answers m = (m', [c']) ∧ c.Moves m m' c' := by
  obtain ⟨op, name, since, stage⟩ := c
  cases stage with
  | returned ok => exact ⟨_, _, rfl, .rest rfl⟩
  | inserting unit => exact ⟨_, _, rfl, .insert rfl⟩
  | called =>
      simp only [step]
      split
      · next unit hunit => exact ⟨_, _, rfl, .take rfl hunit⟩
      · next hunit =>
          cases op with
          | start props => exact ⟨_, _, rfl, .launch rfl⟩
          | restart => exact ⟨_, _, rfl, .absent rfl rfl hunit⟩
          | stop => exact ⟨_, _, rfl, .succeed (by intro h; cases h)⟩
          | kill signal => exact ⟨_, _, rfl, .succeed (by intro h; cases h)⟩
  | spawning props =>
      simp only [step]
      split
      · exact ⟨_, _, rfl, .fail nofun⟩
      · next pid _ =>
          split
          · exact ⟨_, _, rfl, .fail nofun⟩
          · exact ⟨_, _, rfl, .spawn pid rfl⟩
  | stopping unit wait =>
      cases wait with
      | done ok =>
          cases ok with
          | false => exact ⟨_, _, rfl, .fail nofun⟩
          | true =>
              cases op with
              | start props => exact ⟨_, _, rfl, .launch rfl⟩
              | restart => exact ⟨_, _, rfl, .relaunch rfl rfl⟩
              | stop => exact ⟨_, _, rfl, .succeed (by intro h; cases h)⟩
              | kill signal => exact ⟨_, _, rfl, .succeed (by intro h; cases h)⟩
      | signalling | waiting | waitingKilled | polling | pollingKilled =>
          exact ⟨_, _, rfl, .wait rfl⟩

/-- The properties that the call spawns a child of, or has spawned one of. -/
def launches (c : Call) : Option UnitProperties :=
  match c.stage with
  | .spawning props => some props
  | .inserting unit => some unit.props
  | _ => none

/-- What is true of a call between its steps: a restart has the last properties of its
    unit, a start its own, and a unit that is about to go into the table has been spawned
    since the call was made. -/
structure Sound (m : Manager) (c : Call) : Prop where
  held : c.op = .restart → ∀ props ∈ c.holds, m.started[c.name]? = some props
  launched : ∀ props ∈ c.launches, c.op = .restart ∨ c.op = .start props
  child : ∀ unit, c.stage = .inserting unit → unit.child = true
    ∧ ⟨c.name, unit.pgid, unit.props.command⟩ ∈ m.spawned.drop c.since
  since : c.since ≤ m.spawned.length

/-- What other calls do to the manager. -/
theorem Sound.mono {m m' : Manager} {c : Call} (h : c.Sound m)
    (hstarted : c.op = .restart → ∀ props ∈ c.holds, m.started[c.name]? = some props →
      m'.started[c.name]? = some props)
    (hspawned : m.spawned <+: m'.spawned) : c.Sound m' := by
  obtain ⟨more, hmore⟩ := hspawned
  refine ⟨fun hop props hholds => hstarted hop props hholds (h.held hop props hholds),
    h.launched, fun unit hstage => ⟨(h.child unit hstage).1, ?_⟩, ?_⟩
  · rw [← hmore, List.drop_append_of_le_length h.since]
    exact List.mem_append_left _ (h.child unit hstage).2
  · rw [← hmore, List.length_append]
    exact Nat.le_add_right_of_le h.since

/-- What leaves `started` and `spawned` alone. -/
theorem Sound.frame {m m' : Manager} {c : Call} (h : c.Sound m) (hstarted : m'.started = m.started)
    (hspawned : m'.spawned = m.spawned) : c.Sound m' := by
  refine h.mono (fun _ props _ hprops => ?_) (hspawned.symm ▸ List.prefix_refl m.spawned)
  rw [hstarted]
  exact hprops

end Call

/-- The table has the last properties of its units, and the calls are sound. -/
structure Inv (s : State) : Prop where
  known : ∀ (name : String) (unit : LocalUnit), s.1.units[name]? = some unit →
    s.1.started[name]? = some unit.props
  sound : ∀ c ∈ s.2, c.Sound s.1

section Moves

variable {s : State} {position : Nat} {c c' : Call} {m' : Manager}

theorem insert_other (m : Manager) (op : Op) {name other : String} (unit : LocalUnit)
    (hname : name ≠ other) :
    (m.insert op name unit).units[other]? = m.units[other]?
      ∧ (m.insert op name unit).started[other]? = m.started[other]? := by
  have hne : ¬ compare name other = .eq := fun heq => hname (Std.LawfulEqCmp.eq_of_compare heq)
  refine ⟨?_, ?_⟩
  · exact Std.ExtTreeMap.getElem?_insert.trans (if_neg hne)
  · cases op with
    | start props => exact Std.ExtTreeMap.getElem?_insert.trans (if_neg hne)
    | stop | restart | kill => rfl

theorem known_moves (h : Inv s) (hget : s.2[position]? = some c) (hmoves : c.Moves s.1 m' c') :
    ∀ (name : String) (unit : LocalUnit), m'.units[name]? = some unit →
      m'.started[name]? = some unit.props := by
  cases hmoves with
  | take =>
      intro name unit hunit
      rw [Std.ExtTreeMap.getElem?_erase] at hunit
      split at hunit
      · exact nomatch hunit
      · exact h.known name unit hunit
  | @insert inserted hstage =>
      intro name unit hunit
      have hsound := h.sound c (List.mem_of_getElem? hget)
      have hlaunches : c.launches = some inserted.props := by rw [Call.launches, hstage]
      have hholds : c.holds = some inserted.props := by rw [Call.holds, hstage]
      have hstarted : (s.1.insert c.op c.name inserted).started[c.name]?
          = some inserted.props := by
        rcases hsound.launched _ hlaunches with hop | hop
        · rw [hop]
          exact hsound.held hop _ hholds
        · rw [hop]
          exact Std.ExtTreeMap.getElem?_insert_self
      by_cases hname : c.name = name
      · subst hname
        obtain rfl := Option.some.inj (Std.ExtTreeMap.getElem?_insert_self.symm.trans hunit)
        exact hstarted
      · obtain ⟨hunits, hothers⟩ := insert_other s.1 c.op inserted hname
        rw [hunits] at hunit
        rw [hothers]
        exact h.known name unit hunit
  | absent | wait | launch | relaunch | spawn | fail | succeed | rest => exact h.known

theorem sound_moves (hinv : Inv s) (hget : s.2[position]? = some c)
    (hmoves : c.Moves s.1 m' c') : c'.Sound m' := by
  have h := hinv.sound c (List.mem_of_getElem? hget)
  cases hmoves with
  | @take unit hstage hunit =>
      refine ⟨fun _ props hholds => ?_, nofun, nofun, h.since⟩
      obtain rfl := Option.some.inj hholds
      exact hinv.known c.name unit hunit
  | @wait unit wait _ _ hstage =>
      refine ⟨fun hop props hholds => h.held hop props ?_, nofun, nofun, h.since⟩
      rw [Call.holds, hstage]
      exact hholds
  | launch hop =>
      refine ⟨fun hrestart => ?_, fun props hlaunches => ?_, nofun, h.since⟩
      · rw [show c.op = .restart from hrestart] at hop
        exact nomatch hop
      · obtain rfl := Option.some.inj hlaunches
        exact Or.inr hop
  | @relaunch unit wait hstage hop =>
      refine ⟨fun _ props hholds => h.held hop props ?_, fun _ _ => Or.inl hop, nofun, h.since⟩
      rw [Call.holds, hstage]
      exact hholds
  | @spawn props pid hstage =>
      refine ⟨fun hop other hholds => h.held hop other ?_, fun other hlaunches => h.launched other ?_,
        fun unit hinserting => ?_, ?_⟩
      · rw [Call.holds, hstage]
        exact hholds
      · rw [Call.launches, hstage]
        exact hlaunches
      · obtain rfl := Stage.inserting.inj hinserting
        refine ⟨rfl, ?_⟩
        show _ ∈ (s.1.spawned ++ _).drop c.since
        rw [List.drop_append_of_le_length h.since]
        exact List.mem_append_right _ (List.mem_singleton_self _)
      · show c.since ≤ (s.1.spawned ++ _).length
        rw [List.length_append]
        exact Nat.le_add_right_of_le h.since
  | absent | insert | fail | succeed => exact ⟨nofun, nofun, nofun, h.since⟩
  | rest => exact h

/-- What a step does to the other calls. -/
theorem sound_others {answers : Answers} (h : Inv s) (hget : s.2[position]? = some c)
    (hapart : Apart s (.step position answers)) (hmoves : c.Moves s.1 m' c') :
    ∀ d ∈ s.2, d.Sound m' := by
  intro d hd
  cases hmoves with
  | @insert unit hstage =>
      refine (h.sound d hd).mono (fun hop props hholds hstarted => ?_) (List.prefix_refl _)
      by_cases hname : c.name = d.name
      · cases hstart : c.op with
        | stop | restart | kill => exact hstarted
        | start asked =>
            have hcompletes : c.completes = some asked := by rw [Call.completes, hstart, hstage]
            obtain rfl := hapart c hget asked hcompletes d hd hop hname.symm props hholds
            rw [← hname]
            exact Std.ExtTreeMap.getElem?_insert_self
      · rw [(insert_other s.1 c.op unit hname).2]
        exact hstarted
  | spawn => exact (h.sound d hd).mono (fun _ _ _ hstarted => hstarted) (List.prefix_append _ _)
  | take | absent | wait | launch | relaunch | fail | succeed | rest =>
      exact (h.sound d hd).frame rfl rfl

theorem inv_moves {answers : Answers} (h : Inv s) (hget : s.2[position]? = some c)
    (hapart : Apart s (.step position answers)) (hmoves : c.Moves s.1 m' c') :
    Inv (m', s.2.set position c') := by
  refine ⟨known_moves h hget hmoves, fun d hd => ?_⟩
  rcases List.mem_or_eq_of_mem_set hd with hd | rfl
  · exact sound_others h hget hapart hmoves d hd
  · exact sound_moves h hget hmoves

/-- **ONE STEP OF A RESTART**: if it returns `Ok`, it has put the unit into the table, or
    it has not found it. -/
theorem returns_iff (h : Inv s) (hget : s.2[position]? = some c) (hmoves : c.Moves s.1 m' c')
    (hop : c.op = .restart) (hprogress : c.inProgress = true) :
    (c' = c.goto (.returned true) → Runs m' c.name c.since)
      ↔ (c.stage = .called → c.name ∈ s.1.started → c.name ∈ s.1.units) := by
  have hsound := h.sound c (List.mem_of_getElem? hget)
  have hother : ∀ {stage : Stage} {m' : Manager}, stage ≠ .returned true → c.stage ≠ .called →
      ((c.goto stage = c.goto (.returned true) → Runs m' c.name c.since)
        ↔ (c.stage = .called → c.name ∈ s.1.started → c.name ∈ s.1.units)) :=
    fun hnot hstage => iff_of_true (fun hreturned => absurd (congrArg Call.stage hreturned) hnot)
      (fun hcalled => absurd hcalled hstage)
  cases hmoves with
  | take hstage hunit =>
      refine ⟨fun _ _ _ => ?_, fun _ hreturned => nomatch congrArg Call.stage hreturned⟩
      rw [Std.ExtTreeMap.mem_iff_isSome_getElem?, hunit]
      rfl
  | absent hstage _ hunit =>
      constructor
      · intro hruns _ hstarted
        obtain ⟨props, hprops⟩ := Option.isSome_iff_exists.mp
          (Std.ExtTreeMap.mem_iff_isSome_getElem?.mp hstarted)
        obtain ⟨unit, hfound, -⟩ := hruns rfl props hprops
        exact nomatch hunit.symm.trans hfound
      · intro hfound _ props hprops
        have hstarted : c.name ∈ s.1.started := by
          rw [Std.ExtTreeMap.mem_iff_isSome_getElem?]
          exact Option.isSome_of_eq_some hprops
        have hmem := Std.ExtTreeMap.mem_iff_isSome_getElem?.mp (hfound hstage hstarted)
        rw [hunit] at hmem
        exact nomatch hmem
  | @insert unit hstage =>
      refine ⟨fun _ hcalled => (nomatch hstage.symm.trans hcalled), fun _ _ props hprops => ?_⟩
      have hholds : c.holds = some unit.props := by rw [Call.holds, hstage]
      have hstarted := hsound.held hop _ hholds
      rw [hop] at hprops ⊢
      obtain rfl := Option.some.inj (hstarted.symm.trans hprops)
      obtain ⟨hchild, hspawned⟩ := hsound.child unit hstage
      exact ⟨unit, Std.ExtTreeMap.getElem?_insert_self, rfl, hchild, hspawned⟩
  | wait hstage => exact hother nofun fun hcalled => (nomatch hstage.symm.trans hcalled)
  | relaunch hstage => exact hother nofun fun hcalled => (nomatch hstage.symm.trans hcalled)
  | spawn pid hstage => exact hother nofun fun hcalled => (nomatch hstage.symm.trans hcalled)
  | fail hstage => exact hother nofun hstage
  | launch hstart => exact nomatch hop.symm.trans hstart
  | succeed hnot => exact absurd hop hnot
  | rest hstage => exact nomatch hprogress.symm.trans hstage

end Moves

theorem unitStep_moves {s : State} {position : Nat} {c : Call} (answers : Answers)
    (hget : s.2[position]? = some c) :
    ∃ m' c', c.Moves s.1 m' c'
      ∧ unitStep s (.step position answers) = (m', s.2.set position c') := by
  obtain ⟨m', c', hstep, hmoves⟩ := c.step_moves answers s.1
  exact ⟨m', c', hmoves, stepAt_one Call.step hget hstep⟩

-- ── every step ────────────────────────────────────────────────────────────────

/-- A unit that is altered without a call keeps its properties. -/
theorem inv_alter {s : State} (h : Inv s) (name : String)
    {f : TrackedUnit → Option TrackedUnit} :
    Inv ({ s.1 with units := s.1.units.alter name (·.bind fun unit =>
      (f unit.tracked).map unit.left) }, s.2) := by
  refine ⟨fun other unit hunit => ?_, fun c hc => ?_⟩
  · rw [Std.ExtTreeMap.getElem?_alter] at hunit
    split at hunit
    · next hname =>
        obtain ⟨before, hbefore, hmap⟩ := Option.bind_eq_some_iff.mp hunit
        obtain ⟨left, -, rfl⟩ := Option.map_eq_some_iff.mp hmap
        rw [← Std.LawfulEqCmp.eq_of_compare hname]
        exact h.known name before hbefore
    · exact h.known other unit hunit
  · exact (h.sound c hc).frame rfl rfl

theorem inv_step (s : State) (a : Action) (h : Inv s) (hapart : Apart s a) :
    Inv (unitStep s a) := by
  cases a with
  | deed pgid does =>
      exact ⟨h.known, fun c hc => (h.sound c hc).frame rfl rfl⟩
  | reap name answers => exact inv_alter h name
  | status name answers => exact inv_alter h name
  | call op name =>
      refine ⟨h.known, fun c hc => ?_⟩
      rcases List.mem_append.mp hc with hc | hc
      · exact (h.sound c hc).frame rfl rfl
      · rw [List.mem_singleton.mp hc]
        exact ⟨nofun, nofun, nofun, Nat.le_refl _⟩
  | step position answers =>
      cases hget : s.2[position]? with
      | none =>
          rw [unitStep, stepAt_none Call.step hget]
          exact h
      | some c =>
          obtain ⟨m', c', hmoves, heq⟩ := unitStep_moves answers hget
          rw [heq]
          exact inv_moves h hget hapart hmoves

theorem restarts_step (s : State) (a : Action) (h : Inv s) : Restarts s a ↔ Found s a := by
  cases a with
  | call | deed | reap | status => exact Iff.rfl
  | step position answers =>
      cases hget : s.2[position]? with
      | none =>
          have hnone : ∀ c, c ∉ s.2[position]? := fun c hc => by
            rw [hget] at hc
            exact nomatch hc
          exact ⟨fun _ c hc => absurd hc (hnone c), fun _ c hc => absurd hc (hnone c)⟩
      | some c =>
          obtain ⟨m', c', hmoves, heq⟩ := unitStep_moves answers hget
          have hafter : (s.2.set position c')[position]? = some c' :=
            List.getElem?_set_self (List.getElem?_eq_some_iff.mp hget).1
          have hreturns := returns_iff h hget hmoves
          constructor
          · intro hrestarts other hother hop hcalled
            obtain rfl : c = other := Option.some.inj (hget.symm.trans hother)
            have hprogress : c.inProgress = true := by rw [Call.inProgress, hcalled]
            refine (hreturns hop hprogress).mp (fun hreturned => ?_) hcalled
            have hruns := hrestarts c hget hop hprogress
            rw [heq] at hruns
            exact hruns (hafter.trans (congrArg some hreturned))
          · intro hfound other hother hop hprogress hreturned
            obtain rfl : c = other := Option.some.inj (hget.symm.trans hother)
            rw [heq] at hreturned ⊢
            exact (hreturns hop hprogress).mpr (hfound c hget hop)
              (Option.some.inj (hafter.symm.trans hreturned))

theorem inv_opened {s : State} (h : Opened s) : Inv s := by
  refine ⟨h.loaded, fun c hc => ?_⟩
  rw [h.idle] at hc
  exact nomatch hc

/-- **A RESTART RESTARTS**: in every run in which no start with other properties returns
    while a restart has its unit, every restart that returns `Ok` has restarted its unit,
    if and only if every restart of a unit that was ever started finds it in the table. -/
theorem restarts_iff {s : State} (hopened : Opened s) {as : List Action}
    (hapart : Along unitStep Apart s as) :
    Along unitStep Restarts s as ↔ Along unitStep Found s as := by
  have hcongr : Along unitStep (fun s a => Restarts s a ∧ Apart s a) s as
      ↔ Along unitStep (fun s a => Found s a ∧ Apart s a) s as :=
    along_congr unitStep
      (fun s a (h : Inv s) => and_congr_left fun _ => restarts_step s a h)
      (fun s a h hstep => inv_step s a h hstep.2) as s (inv_opened hopened)
  constructor
  · exact fun hrestarts => along_mono unitStep (fun _ _ hstep => hstep.1)
      (hcongr.mp (along_and unitStep hrestarts hapart))
  · exact fun hfound => along_mono unitStep (fun _ _ hstep => hstep.1)
      (hcongr.mpr (along_and unitStep hfound hapart))

-- ── a unit that is restarted, and three that are not ──────────────────────────

instance decidableApart (s : State) : ∀ a : Action, Decidable (Apart s a)
  | .step position _ =>
      inferInstanceAs (Decidable (∀ c ∈ s.2[position]?, ∀ props ∈ c.completes, ∀ d ∈ s.2,
        d.op = .restart → d.name = c.name → ∀ held ∈ d.holds, held = props))
  | .call _ _ | .deed _ _ | .reap _ _ | .status _ _ => .isTrue trivial

instance decidableFound (s : State) : ∀ a : Action, Decidable (Found s a)
  | .step position _ =>
      inferInstanceAs (Decidable (∀ c ∈ s.2[position]?, c.op = .restart → c.stage = .called →
        c.name ∈ s.1.started → c.name ∈ s.1.units))
  | .call _ _ | .deed _ _ | .reap _ _ | .status _ _ => .isTrue trivial

/-- No unit, no group, no call. -/
def opened : State := (⟨∅, ∅, [], ∅, []⟩, [])

theorem opened_empty : Opened opened := by
  refine ⟨rfl, fun name unit hunit => ?_⟩
  exact nomatch Std.ExtTreeMap.getElem?_empty.symm.trans hunit

def web : UnitProperties := .new "web" "/srv" ["PORT=80"] ⟨"/bin/web", ["/bin/web"], false⟩

/-- A child gets the process id `pid`, and nothing fails. -/
def go (position pid : Nat) : Action := .step position (DevstackUnitTable.smoothly pid)

/-- A start, at a position, up to its end. -/
def starting (position pid : Nat) (props : UnitProperties) : List Action :=
  .call (.start props) "web" :: List.replicate 3 (go position pid)

/-- The child exits at the signal of a stop or a restart. -/
def stopping (position pid : Nat) : List Action :=
  [go position pid, .deed pid .leaderExits, go position pid, go position pid]

/-- A running unit is restarted. -/
theorem restarts_running :
    Along unitStep Restarts opened
      (starting 0 7 web ++ .call .restart "web" :: go 1 7 :: stopping 1 7 ++ [go 1 8, go 1 8]) :=
  (restarts_iff opened_empty (by decide +kernel)).mpr (by decide +kernel)

theorem not_restarts {s : State} {position : Nat} {answers : Answers} {c : Call}
    {props : UnitProperties} (hget : s.2[position]? = some c) (hop : c.op = .restart)
    (hprogress : c.inProgress = true)
    (hreturned : (unitStep s (.step position answers)).2[position]?
      = some (c.goto (.returned true)))
    (hstarted : (unitStep s (.step position answers)).1.started[c.name]? = some props)
    (hunit : ((unitStep s (.step position answers)).1.units[c.name]?).map (·.props) ≠ some props) :
    ¬ Restarts s (.step position answers) := by
  intro hrestarts
  obtain ⟨unit, hfound, rfl, -⟩ := hrestarts c hget hop hprogress hreturned props hstarted
  exact hunit (congrArg (Option.map LocalUnit.props) hfound)

/-- The reaper has taken the unit out after its child has exited. -/
def crashed : List Action :=
  starting 0 7 web ++ [.deed 7 .leaderExits, .reap "web" (DevstackUnitTable.smoothly 7),
    .call .restart "web"]

/-- The unit was stopped. -/
def stopped : List Action :=
  starting 0 7 web ++ .call .stop "web" :: go 1 7 :: stopping 1 7 ++ [.call .restart "web"]

/-- A start with other properties overlaps the restart. -/
def overtaken : List Action :=
  starting 0 7 web ++ .call .restart "web" :: go 1 7
    :: starting 2 9 { web with environment := ["PORT=81"] } ++ stopping 1 7 ++ [go 1 8]

/-- **NO NEW PROCESS**: restarts of a unit that has crashed or was stopped return `Ok` without
    one, and an overtaken restart leaves the properties of the start before. -/
theorem missed_restarts :
    ¬ Along unitStep Restarts opened (crashed ++ [go 1 8])
      ∧ ¬ Along unitStep Restarts opened (stopped ++ [go 2 8])
      ∧ ¬ Along unitStep Restarts opened (overtaken ++ [go 1 8]) := by
  have hlast : ∀ {as : List Action} {a : Action}, Along unitStep Restarts opened (as ++ [a]) →
      Restarts (run unitStep opened as) a := fun h => ((along_append unitStep _ opened _ _).mp h).2.1
  refine ⟨fun h => ?_, fun h => ?_, fun h => ?_⟩
  · have hcall : (run unitStep opened crashed).2[1]? = some ⟨.restart, "web", 1, .called⟩ := by
      decide +kernel
    exact not_restarts hcall rfl rfl (by decide +kernel)
      (show _ = some web by decide +kernel) (by decide +kernel) (hlast h)
  · have hcall : (run unitStep opened stopped).2[2]? = some ⟨.restart, "web", 1, .called⟩ := by
      decide +kernel
    exact not_restarts hcall rfl rfl (by decide +kernel)
      (show _ = some web by decide +kernel) (by decide +kernel) (hlast h)
  · have hcall : (run unitStep opened overtaken).2[1]?
        = some ⟨.restart, "web", 1, .inserting ⟨web, true, 8, false⟩⟩ := by decide +kernel
    exact not_restarts hcall rfl rfl (by decide +kernel)
      (show _ = some { web with environment := ["PORT=81"] } by decide +kernel)
      (by decide +kernel) (hlast h)

end DevstackRestartUnit
