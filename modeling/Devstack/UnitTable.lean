import Devstack.Model
import Devstack.LocalSystemd

/-! # The units of the local manager — overlapping calls on one table

    `LocalSystemd` of `src/systemd.rs`, for all its units.  Every operation takes its
    unit out of the table, waits for the group of the unit without the lock, and puts
    the unit it has spawned back.  In between, other operations, the reaper and status
    polls see a table without it.

    What is asked of the manager is that it knows every process group it has started.
    `tracks_along`: it does, as long as

    * no two operations of one unit overlap that both may start it, or of which one
      stops it (two restarts may);
    * a group has no process left when the operation that stops it is through with it;
    * the reaper comes to a unit whose child has exited after the rest of its group.

    `untracked` has a run for each of these that goes wrong without it. -/

namespace DevstackUnitTable

open DevstackModel DevstackMachine DevstackInterleaving
open DevstackShim (processGroupExists)
open DevstackLocalSystemd (LocalUnit)

-- ── process groups ────────────────────────────────────────────────────────────

/-- A process group with at least one process, and the unit it was started for. -/
structure ProcessGroup where
  unit : String
  /-- the child that was spawned -/
  leader : Bool
  others : Bool
  deriving DecidableEq

/-- What the processes of a group do by themselves. -/
inductive ProcessDeed where
  | leaderExits
  | othersExit
  | fork

/-- A group is gone with its last process. -/
def ProcessGroup.act (deed : ProcessDeed) (g : ProcessGroup) : Option ProcessGroup :=
  match deed with
  | .leaderExits => if g.others then some { g with leader := false } else none
  | .othersExit => if g.leader then some { g with others := false } else none
  | .fork => some { g with others := true }

theorem ProcessGroup.act_unit {deed : ProcessDeed} {g g' : ProcessGroup}
    (h : g.act deed = some g') : g'.unit = g.unit := by
  cases deed with
  | fork =>
      obtain rfl := Option.some.inj h
      rfl
  | leaderExits | othersExit =>
      simp only [ProcessGroup.act] at h
      split at h
      · obtain rfl := Option.some.inj h
        rfl
      · exact nomatch h

-- ── systemd.rs ────────────────────────────────────────────────────────────────

/-- `LocalUnit`, with its group. -/
structure TrackedUnit extends LocalUnit where
  pgid : Nat
  deriving DecidableEq

/-- `stopped` is kept for the statements: the units that were stopped with success and
    whose start or restart has not begun since. -/
structure World where
  units : BTreeMap TrackedUnit
  groups : Std.ExtTreeMap Nat ProcessGroup
  stopped : List String

/-- What the system answers at a step. -/
structure Answers where
  /-- `wait` or `try_wait` of the child fails -/
  waitFails : Bool
  /-- the wait has lasted as long as it may -/
  timeUp : Bool
  /-- a dead process of a group still answers -/
  zombie : Bool
  /-- the processes of a killed group are gone at once -/
  prompt : Bool
  /-- the process id of a spawned child -/
  pid : Option Nat
  deriving DecidableEq

def SIGTERM : Int := 15

def SIGKILL : Int := 9

namespace World

/-- The group `pgid` lives and was started for the unit. -/
def live (w : World) (pgid : Nat) (unit : String) : Bool :=
  (w.groups[pgid]?).any (fun g => decide (g.unit = unit))

/-- The child of that process id has exited. -/
def childExited (w : World) (pid : Nat) : Bool := !(w.groups[pid]?).any (·.leader)

def groupExists (w : World) (zombie : Bool) (pgid : Nat) : Bool :=
  processGroupExists (w.groups[pgid]?).isSome zombie

/-- `signal_unit`; what a signal other than SIGKILL does is up to the processes. -/
def signalUnit (w : World) (answers : Answers) (unit : TrackedUnit) (signal : Int) : World :=
  if signal = SIGKILL ∧ answers.prompt = true then
    { w with groups := w.groups.erase unit.pgid }
  else w

end World

/-- Where `stop_and_reap` stands. -/
inductive Wait where
  | signalling
  /-- `timeout(3 s, child.wait())` -/
  | waiting
  /-- `timeout(1 s, child.wait())`, after SIGKILL -/
  | waitingKilled
  /-- `wait_for_process_group_exit`, without a child -/
  | polling
  /-- the same after SIGKILL -/
  | pollingKilled
  | done (ok : Bool)
  deriving DecidableEq

/-- `stop_and_reap`, from one await to the next. -/
def stopAndReap (answers : Answers) (w : World) (unit : TrackedUnit) (signal : Int) :
    Wait → World × Wait
  | .signalling =>
      (w.signalUnit answers unit signal, if unit.child then .waiting else .polling)
  | .waiting =>
      if answers.waitFails then (w, .done false)
      else if w.childExited unit.pgid then (w, .done true)
      else if answers.timeUp then (w.signalUnit answers unit SIGKILL, .waitingKilled)
      else (w, .waiting)
  | .waitingKilled =>
      if answers.waitFails || w.childExited unit.pgid || answers.timeUp then (w, .done true)
      else (w, .waitingKilled)
  | .polling =>
      if !w.groupExists answers.zombie unit.pgid then (w, .done true)
      else if answers.timeUp then (w.signalUnit answers unit SIGKILL, .pollingKilled)
      else (w, .polling)
  | .pollingKilled =>
      if !w.groupExists answers.zombie unit.pgid || answers.timeUp then (w, .done true)
      else (w, .pollingKilled)
  | .done ok => (w, .done ok)

/-- The operations of `SystemdManager` that change a unit. -/
inductive Op where
  | start (remainAfterExit : Bool)
  | stop
  | restart
  | kill (signal : Int)
  deriving DecidableEq

/-- The signal of the operation's `stop_and_reap`. -/
def Op.signal : Op → Int
  | .kill signal => signal
  | _ => SIGTERM

/-- The operation may spawn a child. -/
def Op.respawns : Op → Bool
  | .start _ | .restart => true
  | _ => false

inductive Stage where
  | called
  | stopping (unit : TrackedUnit) (wait : Wait)
  | spawning (remainAfterExit : Bool)
  | inserting (unit : TrackedUnit)
  | returned (ok : Bool)
  deriving DecidableEq

/-- A call of `start_transient_service`, `stop_unit`, `restart_unit` or `kill_unit`. -/
structure Call where
  op : Op
  name : String
  stage : Stage
  deriving DecidableEq

namespace World

/-- A start or a restart begins. -/
def begin (w : World) (op : Op) (name : String) : World :=
  if op.respawns then { w with stopped := w.stopped.filter (fun other => decide (other ≠ name)) }
  else w

/-- The call returns `Ok`. -/
def returnOk (w : World) (op : Op) (name : String) : World :=
  if op = .stop then { w with stopped := name :: w.stopped } else w

end World

def Call.goto (c : Call) (stage : Stage) : Call := { c with stage := stage }

/-- A call between two awaits. -/
def Call.step (answers : Answers) (w : World) (c : Call) : World × List Call :=
  match c.stage with
  | .called =>
      match w.units[c.name]? with
      | some unit =>
          ({ w with units := w.units.erase c.name }, [c.goto (.stopping unit .signalling)])
      | none =>
          match c.op with
          | .start remainAfterExit => (w, [c.goto (.spawning remainAfterExit)])
          | _ => (w.returnOk c.op c.name, [c.goto (.returned true)])
  | .stopping _ (.done false) => (w, [c.goto (.returned false)])
  | .stopping unit (.done true) =>
      match c.op with
      | .start remainAfterExit => (w, [c.goto (.spawning remainAfterExit)])
      | .restart => (w, [c.goto (.spawning unit.remainAfterExit)])
      | _ => (w.returnOk c.op c.name, [c.goto (.returned true)])
  | .stopping unit wait =>
      let next := stopAndReap answers w unit c.op.signal wait
      (next.1, [c.goto (.stopping unit next.2)])
  | .spawning remainAfterExit =>
      match answers.pid with
      | none => (w, [c.goto (.returned false)])
      | some pid =>
          -- no process id is given out while its group lives
          if pid ∈ w.groups then (w, [c.goto (.returned false)])
          else
            ({ w with groups := w.groups.insert pid ⟨c.name, true, false⟩ },
              [c.goto (.inserting ⟨⟨remainAfterExit, true, false⟩, pid⟩)])
  | .inserting unit =>
      ({ w with units := w.units.insert c.name unit }, [c.goto (.returned true)])
  | .returned _ => (w, [c])

/-- A unit without a child, as the reaper and `unit_status` look at it. -/
def keepsChildless (answers : Answers) (w : World) (unit : TrackedUnit) : Bool :=
  unit.remainAfterExit && unit.lastStatus || w.groupExists answers.zombie unit.pgid

def TrackedUnit.exited (unit : TrackedUnit) : TrackedUnit :=
  { unit with child := false, lastStatus := true }

/-- `spawn_reaper`, at one unit: what is left of it. -/
def reapUnit (answers : Answers) (w : World) (unit : TrackedUnit) : Option TrackedUnit :=
  if unit.child then
    if answers.waitFails then none
    else if w.childExited unit.pgid then
      if unit.remainAfterExit then some unit.exited else none
    else some unit
  else if keepsChildless answers w unit then some unit
  else none

/-- `unit_status`: what is left of the unit. -/
def statusUnit (answers : Answers) (w : World) (unit : TrackedUnit) : Option TrackedUnit :=
  if unit.child then
    if answers.waitFails then some unit
    else if w.childExited unit.pgid then some unit.exited
    else some unit
  else if keepsChildless answers w unit then some unit
  else none

-- ── the system ────────────────────────────────────────────────────────────────

abbrev State := World × List Call

/-- A tick of the reaper is a `reap` of every unit. -/
inductive Action where
  | call (op : Op) (name : String)
  | step (position : Nat) (answers : Answers)
  | deed (pgid : Nat) (deed : ProcessDeed)
  | reap (name : String) (answers : Answers)
  | status (name : String) (answers : Answers)

def unitStep (s : State) : Action → State
  | .call op name => (s.1.begin op name, s.2 ++ [⟨op, name, .called⟩])
  | .step position answers => stepAt Call.step s (position, answers)
  | .deed pgid deed =>
      ({ s.1 with groups := s.1.groups.alter pgid (·.bind (·.act deed)) }, s.2)
  | .reap name answers =>
      ({ s.1 with units := s.1.units.alter name (·.bind (reapUnit answers s.1)) }, s.2)
  | .status name answers =>
      ({ s.1 with units := s.1.units.alter name (·.bind (statusUnit answers s.1)) }, s.2)

/-- A manager that has just been opened: the registry has the unit of every group that
    lives. -/
structure Opened (s : State) : Prop where
  idle : s.2 = []
  fresh : s.1.stopped = []
  loaded : ∀ name pgid, s.1.live pgid name = true →
    ∃ unit, s.1.units[name]? = some unit ∧ unit.pgid = pgid

-- ── what is asked of it ───────────────────────────────────────────────────────

namespace Call

/-- The call is stopping a group. -/
def stops (c : Call) : Bool :=
  match c.stage with
  | .stopping _ _ => true
  | _ => false

/-- The group that the call is stopping or has just started. -/
def held (c : Call) : Option Nat :=
  match c.stage with
  | .stopping unit _ | .inserting unit => some unit.pgid
  | _ => none

def inProgress (c : Call) : Bool :=
  match c.stage with
  | .returned _ => false
  | _ => true

/-- The call is through with stopping a group, and the group lives. -/
def leaves (w : World) (c : Call) : Bool :=
  match c.stage with
  | .stopping unit (.done _) => w.live unit.pgid c.name
  | _ => false

end Call

/-- One live group at most, unless one is being stopped. -/
def Single (s : State) : Prop :=
  ∀ name, (∀ c ∈ s.2, c.name = name → c.stops = false) →
    ∀ p q, s.1.live p name = true → s.1.live q name = true → p = q

/-- Every live group is the one in the table under its unit's name, or in the hands of a
    call that is under way. -/
def Tracked (s : State) : Prop :=
  ∀ name pgid, s.1.live pgid name = true →
    (∃ unit, s.1.units[name]? = some unit ∧ unit.pgid = pgid)
      ∨ ∃ c ∈ s.2, c.name = name ∧ c.held = some pgid

/-- No group of a stopped unit is started. -/
def StaysStopped (s : State) (a : Action) : Prop :=
  ∀ name pgid, (unitStep s a).1.live pgid name = true → s.1.live pgid name = false →
    name ∉ s.1.stopped

def Tracks (s : State) (a : Action) : Prop :=
  Single (unitStep s a) ∧ Tracked (unitStep s a) ∧ StaysStopped s a

/-- Two operations of one unit that must not overlap. -/
def Op.conflicts : Op → Op → Bool
  | .kill _, _ | _, .kill _ => false
  | .stop, .stop => false
  | .restart, .restart => false
  | _, _ => true

/-- The group of the unit is gone when its stop is through, or when the reaper finds its
    child exited; operations that conflict do not overlap. -/
def Orderly (s : State) : Action → Prop
  | .call op name =>
      ∀ c ∈ s.2, c.inProgress = true → c.name = name → op.conflicts c.op = false
  | .step position _ => ∀ c ∈ s.2[position]?, c.leaves s.1 = false
  | .reap name answers =>
      ∀ unit ∈ s.1.units[name]?, unit.child = true → (answers.waitFails = true
        ∨ s.1.childExited unit.pgid = true ∧ unit.remainAfterExit = false) →
        s.1.live unit.pgid name = false
  | _ => True

-- ── one step of a call ────────────────────────────────────────────────────────

/-- Signals were sent, and nothing else was done. -/
structure Signals (w w' : World) : Prop where
  units : w'.units = w.units
  stopped : w'.stopped = w.stopped
  groups : ∀ pgid name, w'.live pgid name = true → w.live pgid name = true

theorem Signals.refl (w : World) : Signals w w := ⟨rfl, rfl, fun _ _ h => h⟩

theorem signalUnit_signals (w : World) (answers : Answers) (unit : TrackedUnit) (signal : Int) :
    Signals w (w.signalUnit answers unit signal) := by
  rw [World.signalUnit]
  split
  · refine ⟨rfl, rfl, fun pgid name h => ?_⟩
    simp only [World.live, Std.ExtTreeMap.getElem?_erase] at h
    split at h
    · exact nomatch h
    · exact h
  · exact Signals.refl w

theorem stopAndReap_signals (answers : Answers) (w : World) (unit : TrackedUnit) (signal : Int)
    (wait : Wait) : Signals w (stopAndReap answers w unit signal wait).1 := by
  cases wait with
  | signalling => exact signalUnit_signals w answers unit signal
  | done ok => exact Signals.refl w
  | waiting =>
      simp only [stopAndReap]
      split
      · exact Signals.refl w
      · split
        · exact Signals.refl w
        · split
          · exact signalUnit_signals w answers unit SIGKILL
          · exact Signals.refl w
  | polling =>
      simp only [stopAndReap]
      split
      · exact Signals.refl w
      · split
        · exact signalUnit_signals w answers unit SIGKILL
        · exact Signals.refl w
  | waitingKilled | pollingKilled =>
      simp only [stopAndReap]
      split <;> exact Signals.refl w

theorem returnOk_units (w : World) (op : Op) (name : String) :
    (w.returnOk op name).units = w.units := by
  rw [World.returnOk]
  split <;> rfl

theorem live_returnOk (w : World) (op : Op) (name : String) (pgid : Nat) (other : String) :
    (w.returnOk op name).live pgid other = w.live pgid other := by
  rw [World.returnOk]
  split <;> rfl

theorem begin_units (w : World) (op : Op) (name : String) : (w.begin op name).units = w.units := by
  rw [World.begin]
  split <;> rfl

theorem live_begin (w : World) (op : Op) (name : String) (pgid : Nat) (other : String) :
    (w.begin op name).live pgid other = w.live pgid other := by
  rw [World.begin]
  split <;> rfl

theorem begin_stopped {w : World} {op : Op} {name other : String}
    (h : other ∈ (w.begin op name).stopped) : other ∈ w.stopped := by
  rw [World.begin] at h
  split at h
  · exact (List.mem_filter.mp h).1
  · exact h

theorem not_mem_begin {w : World} {op : Op} {name : String} (hop : op.respawns = true) :
    name ∉ (w.begin op name).stopped := by
  rw [World.begin, if_pos hop]
  intro hmem
  simpa using (List.mem_filter.mp hmem).2

namespace Call

/-- The call is through with its stop, or it has none and has nothing in its hands. -/
def Quits (c : Call) : Prop :=
  c.inProgress = true ∧ (c.held = none ∨ ∃ unit ok, c.stage = .stopping unit (.done ok))

/-- What a step of a call does. -/
inductive Moves (w : World) (c : Call) : World → Call → Prop
  | take {unit : TrackedUnit} (hstage : c.stage = .called)
      (hunit : w.units[c.name]? = some unit) :
      Moves w c { w with units := w.units.erase c.name } (c.goto (.stopping unit .signalling))
  | open {remainAfterExit : Bool} (hstage : c.stage = .called)
      (hop : c.op = .start remainAfterExit) (hunit : w.units[c.name]? = none) :
      Moves w c w (c.goto (.spawning remainAfterExit))
  | wait {unit : TrackedUnit} {wait wait' : Wait} {w' : World}
      (hstage : c.stage = .stopping unit wait) (hsignals : Signals w w') :
      Moves w c w' (c.goto (.stopping unit wait'))
  | respawn {unit : TrackedUnit} {ok remainAfterExit : Bool}
      (hstage : c.stage = .stopping unit (.done ok)) (hop : c.op.respawns = true) :
      Moves w c w (c.goto (.spawning remainAfterExit))
  | spawn {remainAfterExit : Bool} {pid : Nat} {unit : TrackedUnit}
      (hstage : c.stage = .spawning remainAfterExit) (hpid : pid ∉ w.groups)
      (hunit : unit.pgid = pid) :
      Moves w c { w with groups := w.groups.insert pid ⟨c.name, true, false⟩ }
        (c.goto (.inserting unit))
  | insert {unit : TrackedUnit} (hstage : c.stage = .inserting unit) :
      Moves w c { w with units := w.units.insert c.name unit } (c.goto (.returned true))
  | fail (hquits : c.Quits) : Moves w c w (c.goto (.returned false))
  | succeed (hquits : c.Quits) :
      Moves w c (w.returnOk c.op c.name) (c.goto (.returned true))
  | rest : Moves w c w c

theorem step_moves (answers : Answers) (w : World) (c : Call) :
    ∃ w' c', c.step answers w = (w', [c']) ∧ c.Moves w w' c' := by
  obtain ⟨op, name, stage⟩ := c
  cases stage with
  | returned ok => exact ⟨_, _, rfl, .rest⟩
  | inserting unit => exact ⟨_, _, rfl, .insert rfl⟩
  | called =>
      simp only [step]
      split
      · next unit hunit => exact ⟨_, _, rfl, .take rfl hunit⟩
      · next hunit =>
          split
          · exact ⟨_, _, rfl, .open rfl rfl hunit⟩
          · exact ⟨_, _, rfl, .succeed ⟨rfl, Or.inl rfl⟩⟩
  | spawning remainAfterExit =>
      simp only [step]
      split
      · exact ⟨_, _, rfl, .fail ⟨rfl, Or.inl rfl⟩⟩
      · split
        · exact ⟨_, _, rfl, .fail ⟨rfl, Or.inl rfl⟩⟩
        · next hpid => exact ⟨_, _, rfl, .spawn rfl hpid rfl⟩
  | stopping unit wait =>
      cases wait with
      | done ok =>
          cases ok with
          | false => exact ⟨_, _, rfl, .fail ⟨rfl, Or.inr ⟨unit, false, rfl⟩⟩⟩
          | true =>
              cases op with
              | start => exact ⟨_, _, rfl, .respawn rfl rfl⟩
              | restart => exact ⟨_, _, rfl, .respawn rfl rfl⟩
              | stop => exact ⟨_, _, rfl, .succeed ⟨rfl, Or.inr ⟨unit, true, rfl⟩⟩⟩
              | kill => exact ⟨_, _, rfl, .succeed ⟨rfl, Or.inr ⟨unit, true, rfl⟩⟩⟩
      | signalling | waiting | waitingKilled | polling | pollingKilled =>
          exact ⟨_, _, rfl, .wait rfl (stopAndReap_signals answers w unit op.signal _)⟩

/-- A call keeps its operation and its unit. -/
theorem Moves.same {w w' : World} {c c' : Call} (h : c.Moves w w' c') :
    c'.op = c.op ∧ c'.name = c.name := by
  cases h <;> exact ⟨rfl, rfl⟩

/-- The call is about to put a group into the table. -/
def spawns (c : Call) : Bool :=
  match c.stage with
  | .spawning _ | .inserting _ => true
  | _ => false

/-- A start or restart that has looked into the table. -/
def active (c : Call) : Bool := c.op.respawns && (c.stops || c.spawns)

theorem inProgress_of_active {c : Call} (h : c.active = true) : c.inProgress = true := by
  obtain ⟨op, name, stage⟩ := c
  cases stage with
  | returned ok =>
      rw [active] at h
      simp [stops, spawns] at h
  | _ => rfl

theorem respawns_of_active {c : Call} (h : c.active = true) : c.op.respawns = true :=
  (Bool.and_eq_true_iff.mp h).1

end Call

theorem active_of_spawns {c : Call} (hop : c.op.respawns = true) (hspawns : c.spawns = true) :
    c.active = true := by
  rw [Call.active, hop, hspawns, Bool.or_true]
  rfl

theorem Op.conflicts_comm (op op' : Op) : op.conflicts op' = op'.conflicts op := by
  cases op <;> cases op' <;> rfl

/-- Two calls do not conflict, and are not both to put a group of one unit into the
    table. -/
def Apart (c c' : Call) : Prop :=
  c.name = c'.name →
    (c.inProgress = true → c'.inProgress = true → c.op.conflicts c'.op = false)
      ∧ ¬ (c.active = true ∧ c'.active = true)

theorem apart_symm (c c' : Call) (h : Apart c c') : Apart c' c := by
  intro hname
  obtain ⟨hconflicts, hactive⟩ := h hname.symm
  refine ⟨fun hc' hc => ?_, fun ⟨hc', hc⟩ => hactive ⟨hc, hc'⟩⟩
  rw [Op.conflicts_comm]
  exact hconflicts hc hc'

structure Inv (s : State) : Prop where
  tracked : Tracked s
  apart : s.2.Pairwise Apart
  taken : ∀ c ∈ s.2, c.active = true → s.1.units[c.name]? = none
  begun : ∀ c ∈ s.2, c.inProgress = true → c.op.respawns = true → c.name ∉ s.1.stopped
  respawns : ∀ c ∈ s.2, c.spawns = true → c.op.respawns = true

namespace Inv

variable {s : State}

/-- The unit of a group is in the table or with one call, not both. -/
theorem single (h : Inv s) : Single s := by
  intro name hstops
  -- a call that holds a group without stopping one is about to insert it
  have hholds : ∀ {c : Call} {pgid : Nat}, c ∈ s.2 → c.name = name → c.held = some pgid →
      c.active = true := by
    intro c pgid hc hname hheld
    have hspawns : c.spawns = true := by
      have hnot := hstops c hc hname
      obtain ⟨op, n, stage⟩ := c
      cases stage with
      | inserting unit => rfl
      | stopping unit wait => exact nomatch hnot
      | _ => exact nomatch hheld
    exact active_of_spawns (h.respawns c hc hspawns) hspawns
  have hmixed : ∀ {unit : TrackedUnit} {c : Call} {pgid : Nat}, s.1.units[name]? = some unit →
      c ∈ s.2 → c.name = name → c.held = some pgid → False := by
    intro unit c pgid hunit hc hname hheld
    have hnone := h.taken c hc (hholds hc hname hheld)
    rw [hname, hunit] at hnone
    exact nomatch hnone
  intro p q hp hq
  rcases h.tracked name p hp with ⟨unit, hunit, rfl⟩ | ⟨c, hc, hname, hheld⟩
  · rcases h.tracked name q hq with ⟨unit', hunit', rfl⟩ | ⟨c, hc, hname, hheld⟩
    · rw [hunit] at hunit'
      rw [Option.some.inj hunit']
    · exact (hmixed hunit hc hname hheld).elim
  · rcases h.tracked name q hq with ⟨unit, hunit, rfl⟩ | ⟨c', hc', hname', hheld'⟩
    · exact (hmixed hunit hc hname hheld).elim
    · obtain ⟨i, hi⟩ := List.mem_iff_getElem?.mp hc
      rcases (mem_iff_eraseIdx hi).mp hc' with rfl | hother
      · rw [hheld] at hheld'
        exact Option.some.inj hheld'
      · have hapart := pairwise_others apart_symm hi h.apart c' hother
        exact absurd ⟨hholds hc hname hheld, hholds hc' hname' hheld'⟩
          (hapart (hname.trans hname'.symm)).2

end Inv

section Moves

variable {s : State} {position : Nat} {c c' : Call} {w' : World}

/-- What the stop of a call is through with is gone. -/
def DoneGone (w : World) (c : Call) : Prop :=
  ∀ unit ok, c.stage = .stopping unit (.done ok) → w.live unit.pgid c.name = false

/-- After the step of a call there are what it became, and the others. -/
theorem mem_stepped (hget : s.2[position]? = some c) {d : Call} :
    d ∈ s.2.set position c' ↔ d = c' ∨ d ∈ s.2.eraseIdx position := by
  obtain ⟨hlt, -⟩ := List.getElem?_eq_some_iff.mp hget
  have hset : (s.2.set position c')[position]? = some c' := List.getElem?_set_self hlt
  rw [mem_iff_eraseIdx hset, List.eraseIdx_set_eq]

theorem quits_gone {pgid : Nat} {name : String} (hquits : c.Quits) (hdone : DoneGone s.1 c)
    (hname : c.name = name) (hheld : c.held = some pgid) (hlive : s.1.live pgid name = true) :
    False := by
  rcases hquits.2 with hnone | ⟨unit, ok, hstage⟩
  · rw [hnone] at hheld
    exact nomatch hheld
  · rw [Call.held, hstage] at hheld
    have hgone := hdone unit ok hstage
    rw [Option.some.inj hheld, hname, hlive] at hgone
    exact nomatch hgone

theorem tracked_moves (h : Inv s) (hget : s.2[position]? = some c) (hdone : DoneGone s.1 c)
    (hmoves : c.Moves s.1 w' c') : Tracked (w', s.2.set position c') := by
  have hc := List.mem_of_getElem? hget
  -- what another call or this one held, and what the table had
  have hkeep : ∀ {name : String} {pgid : Nat}, s.1.live pgid name = true →
      (∀ unit, s.1.units[name]? = some unit → unit.pgid = pgid →
        (∃ unit, w'.units[name]? = some unit ∧ unit.pgid = pgid)
          ∨ c'.name = name ∧ c'.held = some pgid) →
      (c.name = name → c.held = some pgid →
        (∃ unit, w'.units[name]? = some unit ∧ unit.pgid = pgid)
          ∨ c'.name = name ∧ c'.held = some pgid) →
      (∃ unit, w'.units[name]? = some unit ∧ unit.pgid = pgid)
        ∨ ∃ d ∈ s.2.set position c', d.name = name ∧ d.held = some pgid := by
    intro name pgid hlive htable hhand
    rcases h.tracked name pgid hlive with ⟨unit, hunit, hpgid⟩ | ⟨d, hd, hname, hheld⟩
    · exact (htable unit hunit hpgid).imp_right fun hc' => ⟨c', (mem_stepped hget).mpr (Or.inl rfl), hc'⟩
    · rcases (mem_iff_eraseIdx hget).mp hd with rfl | hd
      · exact (hhand hname hheld).imp_right fun hc' => ⟨c', (mem_stepped hget).mpr (Or.inl rfl), hc'⟩
      · exact Or.inr ⟨d, (mem_stepped hget).mpr (Or.inr hd), hname, hheld⟩
  intro name pgid hlive
  cases hmoves with
  | @take unit hstage hunit =>
      refine hkeep hlive (fun unit' hunit' hpgid => ?_) (fun _ hheld => ?_)
      · by_cases hname : c.name = name
        · right
          rw [hname, hunit'] at hunit
          obtain rfl := Option.some.inj hunit
          exact ⟨hname, congrArg some hpgid⟩
        · left
          refine ⟨unit', ?_, hpgid⟩
          rw [Std.ExtTreeMap.getElem?_erase]
          simpa [hname] using hunit'
      · rw [Call.held, hstage] at hheld
        exact nomatch hheld
  | «open» hstage _ _ =>
      refine hkeep hlive (fun unit hunit hpgid => Or.inl ⟨unit, hunit, hpgid⟩) (fun _ hheld => ?_)
      rw [Call.held, hstage] at hheld
      exact nomatch hheld
  | wait hstage hsignals =>
      refine hkeep (hsignals.groups pgid name hlive) (fun unit hunit hpgid => Or.inl ⟨unit, ?_, hpgid⟩)
        (fun hname hheld => Or.inr ⟨hname, ?_⟩)
      · rw [hsignals.units]
        exact hunit
      · rw [Call.held, hstage] at hheld
        exact hheld
  | respawn hstage _ =>
      refine hkeep hlive (fun unit hunit hpgid => Or.inl ⟨unit, hunit, hpgid⟩)
        (fun hname hheld => ?_)
      rw [Call.held, hstage] at hheld
      have hgone := hdone _ _ hstage
      rw [Option.some.inj hheld, hname, hlive] at hgone
      exact nomatch hgone
  | @spawn _ pid unit hstage hpid hunit =>
      by_cases hnewgroup : pid = pgid
      · refine Or.inr ⟨_, (mem_stepped hget).mpr (Or.inl rfl), ?_, congrArg some (hunit.trans hnewgroup)⟩
        simpa [World.live, Call.goto, hnewgroup] using hlive
      · refine hkeep ?_ (fun unit hunit hpgid => Or.inl ⟨unit, hunit, hpgid⟩) (fun _ hheld => ?_)
        · simpa [World.live, Std.ExtTreeMap.getElem?_insert, hnewgroup] using hlive
        · rw [Call.held, hstage] at hheld
          exact nomatch hheld
  | @insert unit hstage =>
      have hspawns : c.spawns = true := by rw [Call.spawns, hstage]
      have hactive := active_of_spawns (h.respawns c hc hspawns) hspawns
      refine hkeep hlive (fun unit' hunit' hpgid => Or.inl ⟨unit', ?_, hpgid⟩)
        (fun hname hheld => Or.inl ⟨unit, ?_, ?_⟩)
      · have hname : c.name ≠ name := by
          rintro rfl
          rw [h.taken c hc hactive] at hunit'
          exact nomatch hunit'
        rw [Std.ExtTreeMap.getElem?_insert]
        simpa [hname] using hunit'
      · rw [hname, Std.ExtTreeMap.getElem?_insert_self]
      · rw [Call.held, hstage] at hheld
        exact Option.some.inj hheld
  | fail hquits =>
      exact hkeep hlive (fun unit hunit hpgid => Or.inl ⟨unit, hunit, hpgid⟩)
        (fun hname hheld => (quits_gone hquits hdone hname hheld hlive).elim)
  | succeed hquits =>
      rw [live_returnOk] at hlive
      refine hkeep hlive (fun unit hunit hpgid => Or.inl ⟨unit, ?_, hpgid⟩)
        (fun hname hheld => (quits_gone hquits hdone hname hheld hlive).elim)
      rw [returnOk_units]
      exact hunit
  | rest =>
      exact hkeep hlive (fun unit hunit hpgid => Or.inl ⟨unit, hunit, hpgid⟩)
        (fun hname hheld => Or.inr ⟨hname, hheld⟩)

/-- A call that is in progress after its step was before. -/
theorem inProgress_moves {w : World} (hmoves : c.Moves w w' c') (h : c'.inProgress = true) :
    c.inProgress = true := by
  cases hmoves with
  | take hstage | «open» hstage | wait hstage | respawn hstage | spawn hstage =>
      rw [Call.inProgress, hstage]
  | insert | fail | succeed => exact nomatch h
  | rest => exact h

/-- A call becomes active where the table has no unit of that name, and no other call of
    it is active. -/
theorem active_moves (h : Inv s) (hget : s.2[position]? = some c) (hmoves : c.Moves s.1 w' c')
    (hactive : c'.active = true) :
    w'.units[c.name]? = none
      ∧ ∀ d ∈ s.2.eraseIdx position, d.name = c.name → d.active = false := by
  have hc := List.mem_of_getElem? hget
  have hothers := pairwise_others apart_symm hget h.apart
  -- the call was active before
  have hwas : c.active = true → w'.units = s.1.units → w'.units[c.name]? = none
      ∧ ∀ d ∈ s.2.eraseIdx position, d.name = c.name → d.active = false := by
    intro hbefore hunits
    refine ⟨by rw [hunits]; exact h.taken c hc hbefore, fun d hd hname => ?_⟩
    have hnot := (hothers d hd hname.symm).2
    exact Bool.eq_false_iff.mpr fun hd' => hnot ⟨hbefore, hd'⟩
  cases hmoves with
  | take hstage hunit =>
      refine ⟨Std.ExtTreeMap.getElem?_erase_self, fun d hd hname => ?_⟩
      refine Bool.eq_false_iff.mpr fun hd' => ?_
      have hnone := h.taken d (List.mem_of_mem_eraseIdx hd) hd'
      rw [hname, hunit] at hnone
      exact nomatch hnone
  | «open» hstage hop hunit =>
      refine ⟨hunit, fun d hd hname => Bool.eq_false_iff.mpr fun hd' => ?_⟩
      have hconflicts := (hothers d hd hname.symm).1 (by rw [Call.inProgress, hstage])
        (Call.inProgress_of_active hd')
      have hrespawns := Call.respawns_of_active hd'
      rw [hop] at hconflicts
      cases hd'' : d.op <;> rw [hd''] at hconflicts hrespawns
      · exact nomatch hconflicts
      · exact nomatch hrespawns
      · exact nomatch hconflicts
      · exact nomatch hrespawns
  | wait hstage hsignals =>
      have hop := Call.respawns_of_active hactive
      change c.op.respawns = true at hop
      refine hwas ?_ hsignals.units
      rw [Call.active, hop, Call.stops, hstage]
      rfl
  | respawn hstage hop =>
      refine hwas ?_ rfl
      rw [Call.active, hop, Call.stops, hstage]
      rfl
  | spawn hstage =>
      refine hwas (active_of_spawns (h.respawns c hc ?_) ?_) rfl
      all_goals rw [Call.spawns, hstage]
  | insert | fail | succeed =>
      have hnot := Call.inProgress_of_active hactive
      exact nomatch hnot
  | rest => exact hwas hactive rfl

theorem apart_moves (h : Inv s) (hget : s.2[position]? = some c) (hmoves : c.Moves s.1 w' c') :
    (s.2.set position c').Pairwise Apart := by
  obtain ⟨hop, hname⟩ := hmoves.same
  have hothers := pairwise_others apart_symm hget h.apart
  refine pairwise_set hget h.apart (fun d hd => ?_)
  have hapart : Apart c' d := by
    intro hsame
    rw [hname] at hsame
    refine ⟨fun hc' hd' => ?_, fun ⟨hc', hd'⟩ => ?_⟩
    · rw [hop]
      exact (hothers d hd hsame).1 (inProgress_moves hmoves hc') hd'
    · rw [(active_moves h hget hmoves hc').2 d hd hsame.symm] at hd'
      exact nomatch hd'
  exact ⟨hapart, apart_symm c' d hapart⟩

theorem taken_moves (h : Inv s) (hget : s.2[position]? = some c) (hmoves : c.Moves s.1 w' c') :
    ∀ d ∈ s.2.set position c', d.active = true → w'.units[d.name]? = none := by
  have hc := List.mem_of_getElem? hget
  have hothers := pairwise_others apart_symm hget h.apart
  intro d hd hactive
  rcases (mem_stepped hget).mp hd with rfl | hother
  · rw [hmoves.same.2]
    exact (active_moves h hget hmoves hactive).1
  · have hnone := h.taken d (List.mem_of_mem_eraseIdx hother) hactive
    cases hmoves with
    | take =>
        rw [Std.ExtTreeMap.getElem?_erase]
        split
        · rfl
        · exact hnone
    | wait _ hsignals =>
        rw [hsignals.units]
        exact hnone
    | insert hstage =>
        rw [Std.ExtTreeMap.getElem?_insert]
        split
        · next hsame =>
            have hspawns : c.spawns = true := by rw [Call.spawns, hstage]
            exact absurd ⟨active_of_spawns (h.respawns c hc hspawns) hspawns, hactive⟩
              (hothers d hother (by simpa using hsame)).2
        · exact hnone
    | succeed =>
        rw [returnOk_units]
        exact hnone
    | «open» | respawn | spawn | fail | rest => exact hnone

theorem begun_moves (h : Inv s) (hget : s.2[position]? = some c) (hmoves : c.Moves s.1 w' c') :
    ∀ d ∈ s.2.set position c', d.inProgress = true → d.op.respawns = true →
      d.name ∉ w'.stopped := by
  have hc := List.mem_of_getElem? hget
  have hothers := pairwise_others apart_symm hget h.apart
  intro d hd hprogress hop
  have hbefore : d.name ∉ s.1.stopped := by
    rcases (mem_stepped hget).mp hd with rfl | hother
    · obtain ⟨hsameop, hname⟩ := hmoves.same
      rw [hname]
      exact h.begun c hc (inProgress_moves hmoves hprogress) (hsameop ▸ hop)
    · exact h.begun d (List.mem_of_mem_eraseIdx hother) hprogress hop
  cases hmoves with
  | wait _ hsignals =>
      rw [hsignals.stopped]
      exact hbefore
  | succeed hquits =>
      rcases (mem_stepped hget).mp hd with rfl | hother
      · exact nomatch hprogress
      · rw [World.returnOk]
        split
        · next hstop =>
            refine fun hmem => (List.mem_cons.mp hmem).elim (fun hname => ?_) hbefore
            have hconflicts := (hothers d hother hname.symm).1 hquits.1 hprogress
            rw [hstop] at hconflicts
            cases hd' : d.op <;> rw [hd'] at hconflicts hop
            · exact nomatch hconflicts
            · exact nomatch hop
            · exact nomatch hconflicts
            · exact nomatch hop
        · exact hbefore
  | take | «open» | respawn | spawn | insert | fail | rest => exact hbefore

theorem respawns_moves (h : Inv s) (hget : s.2[position]? = some c)
    (hmoves : c.Moves s.1 w' c') :
    ∀ d ∈ s.2.set position c', d.spawns = true → d.op.respawns = true := by
  have hc := List.mem_of_getElem? hget
  intro d hd hspawns
  rcases (mem_stepped hget).mp hd with rfl | hother
  · cases hmoves with
    | «open» _ hop =>
        show c.op.respawns = true
        rw [hop]
        rfl
    | respawn _ hop => exact hop
    | spawn hstage =>
        refine h.respawns c hc ?_
        rw [Call.spawns, hstage]
    | take | wait | insert | fail | succeed => exact nomatch hspawns
    | rest => exact h.respawns _ hc hspawns
  · exact h.respawns d (List.mem_of_mem_eraseIdx hother) hspawns

theorem inv_moves (h : Inv s) (hget : s.2[position]? = some c) (hdone : DoneGone s.1 c)
    (hmoves : c.Moves s.1 w' c') : Inv (w', s.2.set position c') :=
  ⟨tracked_moves h hget hdone hmoves, apart_moves h hget hmoves, taken_moves h hget hmoves,
    begun_moves h hget hmoves, respawns_moves h hget hmoves⟩

end Moves

-- ── every step ────────────────────────────────────────────────────────────────

/-- What becomes of a unit without a call: it stays with its group, or its group is
    gone. -/
theorem inv_alter {s : State} (h : Inv s) {name : String}
    {f : TrackedUnit → Option TrackedUnit}
    (hf : ∀ unit, s.1.units[name]? = some unit →
      (∃ unit', f unit = some unit' ∧ unit'.pgid = unit.pgid) ∨ s.1.live unit.pgid name = false) :
    Inv ({ s.1 with units := s.1.units.alter name (·.bind f) }, s.2) := by
  refine ⟨fun other pgid hlive => ?_, h.apart, fun c hc hactive => ?_, h.begun, h.respawns⟩
  · refine (h.tracked other pgid hlive).imp_left ?_
    rintro ⟨unit, hunit, rfl⟩
    by_cases hname : name = other
    · subst hname
      rcases hf unit hunit with ⟨unit', hunit', hpgid⟩ | hgone
      · refine ⟨unit', ?_, hpgid⟩
        rw [Std.ExtTreeMap.getElem?_alter_self, hunit]
        exact hunit'
      · have hlive : s.1.live unit.pgid name = true := hlive
        rw [hgone] at hlive
        exact nomatch hlive
    · refine ⟨unit, ?_, rfl⟩
      rw [Std.ExtTreeMap.getElem?_alter]
      simpa [hname] using hunit
  · have hnone := h.taken c hc hactive
    rw [Std.ExtTreeMap.getElem?_alter]
    split
    · next hname =>
        rw [show name = c.name by simpa using hname, hnone]
        rfl
    · exact hnone

/-- A unit without a child that is not kept has no group. -/
theorem gone_of_childless {answers : Answers} {w : World} {unit : TrackedUnit} {name : String}
    (h : keepsChildless answers w unit = false) : w.live unit.pgid name = false := by
  rw [keepsChildless, Bool.or_eq_false_iff, World.groupExists, processGroupExists,
    Bool.or_eq_false_iff] at h
  rw [World.live, Option.isSome_eq_false_iff.mp h.2.1 |> Option.isNone_iff_eq_none.mp]
  rfl

theorem statusUnit_keeps (answers : Answers) (w : World) (unit : TrackedUnit) (name : String) :
    (∃ unit', statusUnit answers w unit = some unit' ∧ unit'.pgid = unit.pgid)
      ∨ w.live unit.pgid name = false := by
  rw [statusUnit]
  split
  · left
    split
    · exact ⟨unit, rfl, rfl⟩
    · split
      · exact ⟨unit.exited, rfl, rfl⟩
      · exact ⟨unit, rfl, rfl⟩
  · split
    · exact Or.inl ⟨unit, rfl, rfl⟩
    · next hkeeps => exact Or.inr (gone_of_childless (Bool.eq_false_iff.mpr hkeeps))

theorem reapUnit_keeps {answers : Answers} {w : World} {unit : TrackedUnit} {name : String}
    (h : unit.child = true → (answers.waitFails = true
      ∨ w.childExited unit.pgid = true ∧ unit.remainAfterExit = false) →
      w.live unit.pgid name = false) :
    (∃ unit', reapUnit answers w unit = some unit' ∧ unit'.pgid = unit.pgid)
      ∨ w.live unit.pgid name = false := by
  rw [reapUnit]
  split
  · next hchild =>
      split
      · next hfails => exact Or.inr (h hchild (Or.inl hfails))
      · split
        · next hexited =>
            split
            · exact Or.inl ⟨unit.exited, rfl, rfl⟩
            · next hremain =>
                exact Or.inr (h hchild (Or.inr ⟨hexited, Bool.eq_false_iff.mpr hremain⟩))
        · exact Or.inl ⟨unit, rfl, rfl⟩
  · split
    · exact Or.inl ⟨unit, rfl, rfl⟩
    · next hkeeps => exact Or.inr (gone_of_childless (Bool.eq_false_iff.mpr hkeeps))

/-- What processes do starts no group. -/
theorem live_act {w : World} {pgid : Nat} {deed : ProcessDeed} {other : Nat} {name : String}
    (h : ({ w with groups := w.groups.alter pgid (·.bind (·.act deed)) } : World).live other name
      = true) : w.live other name = true := by
  simp only [World.live, Std.ExtTreeMap.getElem?_alter] at h
  split at h
  · next hsame =>
      have hpgid : pgid = other := by simpa using hsame
      subst hpgid
      obtain ⟨g', hbind, hunit⟩ := (Option.any_eq_true _ _).mp h
      obtain ⟨g, hgroup, hact⟩ := Option.bind_eq_some_iff.mp hbind
      rw [ProcessGroup.act_unit hact] at hunit
      exact (Option.any_eq_true _ _).mpr ⟨g, hgroup, hunit⟩
  · exact h

theorem doneGone_of_orderly {s : State} {position : Nat} {answers : Answers} {c : Call}
    (hok : Orderly s (.step position answers)) (hget : s.2[position]? = some c) :
    DoneGone s.1 c := by
  intro unit ok hstage
  have hleaves := hok c hget
  rw [Call.leaves, hstage] at hleaves
  exact hleaves

theorem unitStep_moves {s : State} {position : Nat} {c : Call} (answers : Answers)
    (hget : s.2[position]? = some c) :
    ∃ w' c', c.Moves s.1 w' c'
      ∧ unitStep s (.step position answers) = (w', s.2.set position c') := by
  obtain ⟨w', c', hstep, hmoves⟩ := c.step_moves answers s.1
  exact ⟨w', c', hmoves, stepAt_one Call.step hget hstep⟩

theorem called_not_active (op : Op) (name : String) :
    (⟨op, name, .called⟩ : Call).active = false := by
  rw [Call.active, Call.stops, Call.spawns, Bool.or_self, Bool.and_false]

theorem inv_call {s : State} {op : Op} {name : String} (h : Inv s)
    (hok : Orderly s (.call op name)) : Inv (unitStep s (.call op name)) := by
  have hold : ∀ d : Call, d ∈ s.2 ++ [⟨op, name, .called⟩] →
      d ∈ s.2 ∨ d = ⟨op, name, .called⟩ := fun d hd =>
    (List.mem_append.mp hd).imp_right List.mem_singleton.mp
  refine ⟨fun other pgid hlive => ?_, ?_, fun d hd hactive => ?_, fun d hd hprogress hop => ?_,
    fun d hd hspawns => ?_⟩
  · rw [unitStep, live_begin] at hlive
    refine (h.tracked other pgid hlive).imp (fun hunit => ?_) ?_
    · rw [unitStep, begin_units]
      exact hunit
    · rintro ⟨d, hd, hheld⟩
      exact ⟨d, List.mem_append_left _ hd, hheld⟩
  · rw [unitStep, List.pairwise_append]
    refine ⟨h.apart, List.pairwise_singleton _ _, fun d hd e he => ?_⟩
    rw [List.mem_singleton.mp he]
    refine fun hname => ⟨fun hprogress _ => ?_, fun hactive => ?_⟩
    · rw [Op.conflicts_comm]
      exact hok d hd hprogress hname
    · rw [called_not_active] at hactive
      exact nomatch hactive.2
  · rw [unitStep, begin_units]
    rcases hold d hd with hd | rfl
    · exact h.taken d hd hactive
    · rw [called_not_active] at hactive
      exact nomatch hactive
  · rw [unitStep]
    rcases hold d hd with hd | rfl
    · exact fun hmem => h.begun d hd hprogress hop (begin_stopped hmem)
    · exact not_mem_begin hop
  · rcases hold d hd with hd | rfl
    · exact h.respawns d hd hspawns
    · exact nomatch hspawns

/-- **ONE ORDERLY STEP** of a call, a process, the reaper or a status poll. -/
theorem inv_step (s : State) (a : Action) (h : Inv s) (hok : Orderly s a) :
    Inv (unitStep s a) := by
  cases a with
  | deed pgid deed =>
      exact ⟨fun name other hlive => h.tracked name other (live_act hlive), h.apart, h.taken,
        h.begun, h.respawns⟩
  | status name answers => exact inv_alter h fun unit _ => statusUnit_keeps answers s.1 unit name
  | reap name answers =>
      exact inv_alter h fun unit hunit => reapUnit_keeps (hok unit hunit)
  | step position answers =>
      cases hget : s.2[position]? with
      | none =>
          rw [unitStep, stepAt_none Call.step hget]
          exact h
      | some c =>
          obtain ⟨w', c', hmoves, heq⟩ := unitStep_moves answers hget
          rw [heq]
          exact inv_moves h hget (doneGone_of_orderly hok hget) hmoves
  | call op name => exact inv_call h hok

/-- Only a start or a restart that is in progress starts a group. -/
theorem staysStopped {s : State} {a : Action} (h : Inv s) : StaysStopped s a := by
  intro name pgid hafter hbefore
  have hnot : s.1.live pgid name = true → name ∉ s.1.stopped := by
    intro hlive
    rw [hbefore] at hlive
    exact nomatch hlive
  cases a with
  | deed => exact hnot (live_act hafter)
  | status | reap => exact hnot hafter
  | call op other =>
      rw [unitStep, live_begin] at hafter
      exact hnot hafter
  | step position answers =>
      cases hget : s.2[position]? with
      | none =>
          rw [unitStep, stepAt_none Call.step hget] at hafter
          exact hnot hafter
      | some c =>
          obtain ⟨w', c', hmoves, heq⟩ := unitStep_moves answers hget
          rw [heq] at hafter
          cases hmoves with
          | wait _ hsignals => exact hnot (hsignals.groups pgid name hafter)
          | succeed =>
              rw [live_returnOk] at hafter
              exact hnot hafter
          | @spawn _ pid unit hstage =>
              by_cases hnew : pid = pgid
              · have hname : c.name = name := by simpa [World.live, hnew] using hafter
                have hc := List.mem_of_getElem? hget
                rw [← hname]
                refine h.begun c hc (by rw [Call.inProgress, hstage]) (h.respawns c hc ?_)
                rw [Call.spawns, hstage]
              · refine hnot ?_
                simpa [World.live, Std.ExtTreeMap.getElem?_insert, hnew] using hafter
          | take | «open» | respawn | insert | fail | rest => exact hnot hafter

theorem inv_opened {s : State} (h : Opened s) : Inv s := by
  have hnone : ∀ c : Call, c ∉ s.2 := by
    rw [h.idle]
    exact fun c => List.not_mem_nil
  refine ⟨fun name pgid hlive => Or.inl (h.loaded name pgid hlive), ?_,
    fun c hc => absurd hc (hnone c), fun c hc => absurd hc (hnone c),
    fun c hc => absurd hc (hnone c)⟩
  rw [h.idle]
  exact List.Pairwise.nil

/-- **EVERY GROUP IS TRACKED**: in every run of the manager whose steps are orderly. -/
theorem tracks_along {s : State} (hopened : Opened s) {as : List Action}
    (hok : Along unitStep Orderly s as) : Along unitStep Tracks s as := by
  refine along_of_guarded unitStep inv_step (fun s a h hok => ?_) as s (inv_opened hopened) hok
  have hafter := inv_step s a h hok
  exact ⟨hafter.single, hafter.tracked, staysStopped h⟩

-- ── a unit that is started and stopped, and three that get lost ───────────────

instance decidableOrderly (s : State) : ∀ a : Action, Decidable (Orderly s a)
  | .call op name => inferInstanceAs (Decidable (∀ c ∈ s.2, c.inProgress = true → c.name = name →
      op.conflicts c.op = false))
  | .step position _ => inferInstanceAs (Decidable (∀ c ∈ s.2[position]?, c.leaves s.1 = false))
  | .reap name answers =>
      inferInstanceAs (Decidable (∀ unit ∈ s.1.units[name]?, unit.child = true →
        (answers.waitFails = true ∨ _) → s.1.live unit.pgid name = false))
  | .deed _ _ | .status _ _ => .isTrue trivial

/-- No unit, no group, no call. -/
def opened : State := (⟨∅, ∅, []⟩, [])

theorem opened_empty : Opened opened :=
  ⟨rfl, rfl, fun name pgid hlive => by
    rw [World.live, show opened.1.groups[pgid]? = none from Std.ExtTreeMap.getElem?_empty] at hlive
    exact nomatch hlive⟩

/-- Children get the process id `pid`, and nothing fails. -/
def smoothly (pid : Nat) : Answers := ⟨false, false, false, true, some pid⟩

/-- A start, at a position, up to its end. -/
def starting (position pid : Nat) : List Action :=
  .call (.start false) "web" :: List.replicate 3 (.step position (smoothly pid))

/-- A stop, at a position, of a unit whose child exits at the signal. -/
def stopping (position pid : Nat) : List Action :=
  [.call .stop "web", .step position (smoothly pid), .step position (smoothly pid),
    .deed pid .leaderExits, .step position (smoothly pid), .step position (smoothly pid)]

/-- A unit is started, stopped, and started again. -/
theorem tracks_along_restarted :
    Along unitStep Tracks opened (starting 0 7 ++ stopping 1 7 ++ starting 2 8) :=
  tracks_along opened_empty (by decide +kernel)

/-- Two starts overlap. -/
def startedTwice : List Action :=
  [.call (.start false) "web", .call (.start false) "web", .step 0 (smoothly 7),
    .step 1 (smoothly 8), .step 0 (smoothly 7), .step 1 (smoothly 8), .step 0 (smoothly 7)]

/-- A stop overlaps a start, and finds nothing. -/
def startedLate : List Action :=
  [.call (.start false) "web", .call .stop "web", .step 1 (smoothly 7), .step 0 (smoothly 7)]

/-- The unit has a second process when it is stopped. -/
def stoppedHalf : List Action :=
  starting 0 7 ++ .deed 7 .fork :: (stopping 1 7).dropLast

/-- The unit has a second process when its child exits. -/
def exitedHalf : List Action := starting 0 7 ++ [.deed 7 .fork, .deed 7 .leaderExits]

/-- A state with the group 7 of the unit, but not in the table nor with a call. -/
theorem not_tracked {s : State} (hlive : s.1.live 7 "web" = true)
    (hunits : (s.1.units["web"]?).isSome = false) (hcalls : ∀ c ∈ s.2, c.held = none) :
    ¬ Tracked s := by
  intro htracked
  rcases htracked "web" 7 hlive with ⟨unit, hunit, -⟩ | ⟨c, hc, -, hheld⟩
  · rw [hunit] at hunits
    exact nomatch hunits
  · rw [hcalls c hc] at hheld
    exact nomatch hheld

/-- Two groups of a unit live; a group is started after its unit was stopped; a stop that
    waits for the child alone leaves a group behind, and so does the reaper. -/
theorem untracked :
    ¬ Along unitStep Tracks opened (startedTwice ++ [.step 1 (smoothly 8)])
      ∧ ¬ Along unitStep Tracks opened (startedLate ++ [.step 0 (smoothly 7)])
      ∧ ¬ Along unitStep Tracks opened (stoppedHalf ++ [.step 1 (smoothly 7)])
      ∧ ¬ Along unitStep Tracks opened (exitedHalf ++ [.reap "web" (smoothly 7)]) := by
  have hlast : ∀ {as : List Action} {a : Action}, Along unitStep Tracks opened (as ++ [a]) →
      Tracks (run unitStep opened as) a := fun h => ((along_append unitStep _ opened _ _).mp h).2.1
  refine ⟨fun h => ?_, fun h => ?_, fun h => ?_, fun h => ?_⟩
  · have hsingle := (hlast h).1
    have hsame := hsingle "web" (by decide +kernel) 7 8 (by decide +kernel) (by decide +kernel)
    exact nomatch hsame
  · have hstays := (hlast h).2.2
    exact hstays "web" 7 (by decide +kernel) (by decide +kernel) (by decide +kernel)
  · exact not_tracked (by decide +kernel) (by decide +kernel) (by decide +kernel) (hlast h).2.1
  · exact not_tracked (by decide +kernel) (by decide +kernel) (by decide +kernel) (hlast h).2.1

end DevstackUnitTable
