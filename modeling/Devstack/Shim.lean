import Mathlib.Logic.Basic

/-! # The shim — one service, its process group and the shutdown of both

    `src/shim.rs`.  The shim runs a service's command in a process group of its
    own, pumps its output into the log and, on SIGTERM or when the command ends,
    terminates the group: SIGTERM, up to five seconds, SIGKILL, up to one second.

    The service is what its processes do: any of them exits or forks whenever it
    likes, and only SIGKILL ends a group at once.  Times are milliseconds; a step
    that would come too early leaves its waiter asleep. -/

namespace DevstackShim

inductive Signal where
  | sigterm
  | sigkill
  deriving DecidableEq

-- ── the service's process group ───────────────────────────────────────────────

/-- The live processes of the group: the shim's child and those forked from it. -/
structure Group where
  child : Bool
  forked : Nat
  deriving DecidableEq

def Group.alive (g : Group) : Bool := g.child || decide (0 < g.forked)

inductive Deed where
  | childExits
  | forkedExits
  | forks
  deriving DecidableEq

def Group.act (g : Group) : Deed → Group
  | .childExits => { g with child := false }
  | .forkedExits => { g with forked := g.forked - 1 }
  | .forks => if g.alive then { g with forked := g.forked + 1 } else g

/-- `send_signal_to_pgid`: what a process makes of SIGTERM is its own deed. -/
def Group.receive (g : Group) : Signal → Group
  | .sigterm => g
  | .sigkill => ⟨false, 0⟩

theorem Group.alive_act {g : Group} (h : g.alive = false) (deed : Deed) :
    (g.act deed).alive = false := by
  obtain ⟨hchild, hforked⟩ := Bool.or_eq_false_iff.mp h
  have hforked : g.forked = 0 := Nat.eq_zero_of_not_pos (of_decide_eq_false hforked)
  cases deed with
  | childExits => simp [Group.act, Group.alive, hforked]
  | forkedExits => simp [Group.act, Group.alive, hchild, hforked]
  | forks =>
      rw [Group.act, h]
      exact h

-- ── waiting for a group ───────────────────────────────────────────────────────

/-- `process_group_exists`; a dead process that is not reaped yet may answer too. -/
def processGroupExists (alive zombie : Bool) : Bool := alive || zombie

/-- One probe of `wait_for_process_group_exit`; `none` sleeps for 50 ms. -/
def waitForProcessGroupExit (now deadline : Nat) (present : Bool) : Option Bool :=
  if now < deadline then if present then none else some true
  else some (!present)

theorem wait_true {now deadline : Nat} {alive zombie : Bool}
    (h : waitForProcessGroupExit now deadline (processGroupExists alive zombie) = some true) :
    alive = false := by
  cases alive with
  | false => rfl
  | true =>
      rw [waitForProcessGroupExit, processGroupExists, Bool.true_or] at h
      split at h
      · exact nomatch h
      · exact nomatch h

-- ── the shim ──────────────────────────────────────────────────────────────────

/-- Who called `shutdown_process_group`. -/
inductive Ending where
  | shutdownAndExit
  | ensureProcessGroupGone
  deriving DecidableEq

/-- Where `run` stands; a waiter has its deadline and the time of its next probe. -/
inductive Phase where
  /-- before the command is spawned -/
  | starting
  /-- before the log file is open and the signal handlers are installed -/
  | opening
  | selecting
  /-- `shutdown_process_group` after SIGTERM -/
  | terminating (deadline wake : Nat) (ending : Ending)
  /-- `shutdown_process_group` after SIGKILL -/
  | killing (deadline wake : Nat) (ending : Ending)
  /-- the last wait of `ensure_process_group_gone` -/
  | verifying (deadline wake : Nat)
  /-- `wait_task.await` -/
  | reaping
  /-- the pump tasks read until every writer has closed its pipe -/
  | pumping
  | exited
  deriving DecidableEq

/-- `signalled`: a SIGTERM that `sigterm.recv` has not returned yet. -/
structure Shim where
  phase : Phase
  signalled : Bool
  deriving DecidableEq

/-- What the system answers to a step of the shim. -/
structure Answer where
  /-- `command.spawn` succeeds -/
  spawns : Bool
  /-- the log file opens and both `signal` calls succeed -/
  opens : Bool
  /-- the wait task gives a status -/
  waited : Bool
  /-- `select!` looks at the wait task first -/
  childFirst : Bool
  zombie : Bool
  pipesClosed : Bool

/-- `shutdown_process_group`, up to its first wait. -/
def shutdownProcessGroup (now : Nat) (ending : Ending) (g : Group) : Phase × Group :=
  (.terminating (now + 5000) now ending, g.receive .sigterm)

/-- Its return. -/
def afterShutdown (now : Nat) : Ending → Phase
  | .shutdownAndExit => .reaping
  | .ensureProcessGroupGone => .verifying (now + 1000) now

/-- `ensure_process_group_gone`, up to its first wait. -/
def ensureProcessGroupGone (now : Nat) (zombie : Bool) (g : Group) : Phase × Group :=
  if processGroupExists g.alive zombie then shutdownProcessGroup now .ensureProcessGroupGone g
  else (.pumping, g)

/-- One step of `run` between two waits. -/
def Phase.next (answer : Answer) (now : Nat) (signalled : Bool) (g : Group) : Phase → Phase × Group
  | .starting => if answer.spawns then (.opening, ⟨true, 0⟩) else (.exited, g)
  | .opening => if answer.opens then (.selecting, g) else (.exited, g)
  | .selecting =>
      if g.child = false ∧ (signalled = false ∨ answer.childFirst = true) then
        if answer.waited then ensureProcessGroupGone now answer.zombie g else (.exited, g)
      else if signalled then shutdownProcessGroup now .shutdownAndExit g
      else (.selecting, g)
  | .terminating deadline wake ending =>
      if now < wake then (.terminating deadline wake ending, g)
      else
        match waitForProcessGroupExit now deadline (processGroupExists g.alive answer.zombie) with
        | none => (.terminating deadline (now + 50) ending, g)
        | some true => (afterShutdown now ending, g)
        | some false => (.killing (now + 1000) now ending, g.receive .sigkill)
  | .killing deadline wake ending =>
      if now < wake then (.killing deadline wake ending, g)
      else
        match waitForProcessGroupExit now deadline (processGroupExists g.alive answer.zombie) with
        | none => (.killing deadline (now + 50) ending, g)
        | some _ => (afterShutdown now ending, g)
  | .verifying deadline wake =>
      if now < wake then (.verifying deadline wake, g)
      else
        match waitForProcessGroupExit now deadline (processGroupExists g.alive answer.zombie) with
        | none => (.verifying deadline (now + 50), g)
        | some _ => (.pumping, g)
  | .reaping => if g.child then (.reaping, g) else (.pumping, g)
  | .pumping => if answer.pipesClosed then (.exited, g) else (.pumping, g)
  | .exited => (.exited, g)

/-- Whether a signal ends the shim: SIGTERM does where no handler is installed. -/
def Shim.endedBy (s : Shim) : Signal → Bool
  | .sigkill => true
  | .sigterm => decide (s.phase = .starting ∨ s.phase = .opening)

def Shim.receive (s : Shim) (signal : Signal) : Shim :=
  if s.phase = .exited then s
  else if s.endedBy signal then { s with phase := .exited }
  else { s with signalled := true }

/-- Whether the shim returns with an error, its service still in its group. -/
def Shim.failsOn (s : Shim) (answer : Answer) (g : Group) : Bool :=
  match s.phase with
  | .opening => !answer.opens
  | .selecting => !g.child && (!s.signalled || answer.childFirst) && !answer.waited
  | _ => false

-- ── no process is left behind ─────────────────────────────────────────────────

/-- The phases in which the shim has seen its group gone, or has none yet. -/
def Phase.settled : Phase → Bool
  | .opening | .selecting | .terminating .. => false
  | _ => true

/-- **THE SHIM CLEANS UP**: unless it returns with an error, the phases in which it is
    done with its group are reached without one. -/
theorem settled_next {answer : Answer} {now : Nat} {s : Shim} {g : Group}
    (h : s.phase.settled = true → g.alive = false)
    (hok : s.failsOn answer g = true → g.alive = false)
    (hsettled : (s.phase.next answer now s.signalled g).1.settled = true) :
    (s.phase.next answer now s.signalled g).2.alive = false := by
  obtain ⟨phase, signalled⟩ := s
  cases phase with
  | starting =>
      simp only [Phase.next] at hsettled ⊢
      split
      · next hspawns =>
          rw [if_pos hspawns] at hsettled
          exact nomatch hsettled
      · exact h rfl
  | opening =>
      simp only [Phase.next] at hsettled ⊢
      split
      · next hopens =>
          rw [if_pos hopens] at hsettled
          exact nomatch hsettled
      · next hopens => exact hok (by simpa [Shim.failsOn] using hopens)
  | selecting =>
      simp only [Phase.next] at hsettled ⊢
      split
      · next hchild =>
          rw [if_pos hchild] at hsettled
          split
          · next hwaited =>
              rw [if_pos hwaited, ensureProcessGroupGone] at hsettled
              rw [ensureProcessGroupGone]
              split
              · next hexists =>
                  rw [if_pos hexists] at hsettled
                  exact nomatch hsettled
              · next hexists =>
                  simp only [processGroupExists, Bool.or_eq_true, not_or,
                    Bool.not_eq_true] at hexists
                  exact hexists.1
          · next hwaited =>
              refine hok ?_
              obtain ⟨hgone, hfirst⟩ := hchild
              simp only [Shim.failsOn, hgone, Bool.not_eq_true] at hwaited ⊢
              simp only [hwaited, Bool.not_false, Bool.and_true, Bool.true_and]
              rcases hfirst with hfirst | hfirst <;> simp [hfirst]
      · next hchild =>
          rw [if_neg hchild] at hsettled
          split at hsettled <;> exact nomatch hsettled
  | terminating deadline wake ending =>
      simp only [Phase.next] at hsettled ⊢
      split at hsettled
      · exact nomatch hsettled
      · next hwake =>
          rw [if_neg hwake]
          split at hsettled
          · exact nomatch hsettled
          · next hwait => exact wait_true hwait
          · rfl
  | killing deadline wake ending =>
      have hgone := h rfl
      simp only [Phase.next]
      split
      · exact hgone
      · split <;> exact hgone
  | verifying deadline wake =>
      have hgone := h rfl
      simp only [Phase.next]
      split
      · exact hgone
      · split <;> exact hgone
  | reaping =>
      have hgone := h rfl
      simp only [Phase.next]
      split <;> exact hgone
  | pumping =>
      have hgone := h rfl
      simp only [Phase.next]
      split <;> exact hgone
  | exited => exact h rfl

theorem receive_exited {s : Shim} (signal : Signal) (h : s.phase = .exited) :
    s.receive signal = s := by
  rw [Shim.receive, if_pos h]

theorem receive_sigkill (s : Shim) : (s.receive .sigkill).phase = .exited := by
  rw [Shim.receive]
  split
  · assumption
  · rfl

/-- A signal that does not end the shim leaves it where it stands. -/
theorem settled_receive {s : Shim} {signal : Signal} {g : Group}
    (h : s.phase.settled = true → g.alive = false)
    (hok : s.endedBy signal = true → g.alive = false)
    (hsettled : (s.receive signal).phase.settled = true) : g.alive = false := by
  rw [Shim.receive] at hsettled
  split at hsettled
  · exact h hsettled
  · split at hsettled
    · next hends => exact hok hends
    · exact h hsettled

end DevstackShim
