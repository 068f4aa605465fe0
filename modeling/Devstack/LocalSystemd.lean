import Devstack.Shim
import Devstack.Lib.Interleaving

/-! # Stopping a local unit — the manager's shutdown against the shim's

    `LocalSystemd` of `src/systemd.rs`, for one unit.  The manager signals the
    process group of the shim; the service is in another one, which only the shim
    signals.  The manager waits three seconds and then ends the shim by SIGKILL;
    the shim waits five seconds before it ends the service's group.

    Stops are calls that interleave, at their awaits, with the shim, the processes
    of the service, the reaper, status polls and restarts of the manager. -/

namespace DevstackLocalSystemd

open DevstackShim DevstackMachine DevstackInterleaving

-- ── systemd.rs ────────────────────────────────────────────────────────────────

/-- `LocalUnit`; its `pgid`, the shim's, is never `None` for a spawned unit. -/
structure LocalUnit where
  remainAfterExit : Bool
  child : Bool
  lastStatus : Bool
  deriving DecidableEq

structure Host where
  now : Nat
  shim : Shim
  group : Group
  unit : Option LocalUnit

/-- What the system answers to the manager: whether waiting for the child fails, and
    whether a dead process of a group still answers. -/
structure Reply where
  waitFails : Bool
  zombie : Bool

def Host.shimExists (h : Host) (zombie : Bool) : Bool :=
  processGroupExists (decide (h.shim.phase ≠ .exited)) zombie

/-- `signal_unit`. -/
def Host.signalUnit (h : Host) (signal : Signal) : Host :=
  { h with shim := h.shim.receive signal }

/-- A call of `stop_unit` or `kill_unit`, between two awaits. -/
inductive Call where
  /-- before the unit is taken out of the map -/
  | stop (signal : Signal)
  /-- `stop_and_reap` -/
  | stopAndReap (unit : LocalUnit) (signal : Signal)
  /-- `timeout(3 s, child.wait())` -/
  | waiting (deadline : Nat)
  /-- `timeout(1 s, child.wait())`, after SIGKILL -/
  | waitingKilled (deadline : Nat)
  /-- `wait_for_process_group_exit`, without a child -/
  | polling (deadline wake : Nat)
  /-- the same after SIGKILL -/
  | pollingKilled (deadline wake : Nat)
  | returned (ok : Bool)
  deriving DecidableEq

def stopUnit : Call := .stop .sigterm

def killUnit (signal : Signal) : Call := .stop signal

def Call.step (reply : Reply) (h : Host) : Call → Host × List Call
  | .stop signal =>
      match h.unit with
      | none => (h, [.returned true])
      | some unit => ({ h with unit := none }, [.stopAndReap unit signal])
  | .stopAndReap unit signal =>
      (h.signalUnit signal,
        if unit.child then [.waiting (h.now + 3000)] else [.polling (h.now + 3000) h.now])
  | .waiting deadline =>
      if reply.waitFails then (h, [.returned false])
      else if h.shim.phase = .exited then (h, [.returned true])
      else if h.now < deadline then (h, [.waiting deadline])
      else (h.signalUnit .sigkill, [.waitingKilled (h.now + 1000)])
  | .waitingKilled deadline =>
      if reply.waitFails = true ∨ h.shim.phase = .exited ∨ deadline ≤ h.now then
        (h, [.returned true])
      else (h, [.waitingKilled deadline])
  | .polling deadline wake =>
      if h.now < wake then (h, [.polling deadline wake])
      else
        match waitForProcessGroupExit h.now deadline (h.shimExists reply.zombie) with
        | none => (h, [.polling deadline (h.now + 50)])
        | some true => (h, [.returned true])
        | some false => (h.signalUnit .sigkill, [.pollingKilled (h.now + 1000) h.now])
  | .pollingKilled deadline wake =>
      if h.now < wake then (h, [.pollingKilled deadline wake])
      else
        match waitForProcessGroupExit h.now deadline (h.shimExists reply.zombie) with
        | none => (h, [.pollingKilled deadline (h.now + 50)])
        | some _ => (h, [.returned true])
  | .returned ok => (h, [.returned ok])

/-- A unit without a child, as `spawn_reaper` and `should_keep_loaded_unit` look at it. -/
def Host.keepsChildless (h : Host) (reply : Reply) (unit : LocalUnit) : Bool :=
  unit.remainAfterExit && unit.lastStatus || h.shimExists reply.zombie

/-- One tick of `spawn_reaper`. -/
def Host.reap (h : Host) (reply : Reply) : Host :=
  { h with unit := h.unit.bind (fun unit =>
      if unit.child then
        if reply.waitFails then none
        else if h.shim.phase = .exited then
          if unit.remainAfterExit then some { unit with child := false, lastStatus := true }
          else none
        else some unit
      else if h.keepsChildless reply unit then some unit else none) }

/-- `unit_status`. -/
def Host.unitStatus (h : Host) (reply : Reply) : Host :=
  { h with unit := h.unit.bind (fun unit =>
      if unit.child then
        if reply.waitFails then some unit
        else if h.shim.phase = .exited then
          some { unit with child := false, lastStatus := true }
        else some unit
      else if h.keepsChildless reply unit then some unit else none) }

/-- `with_registry_path` of a new manager: the units on disk have no child. -/
def Host.loadUnits (h : Host) (reply : Reply) : Host :=
  { h with unit := h.unit.bind (fun unit =>
      if h.keepsChildless reply unit then some { unit with child := false } else none) }

-- ── the system ────────────────────────────────────────────────────────────────

abbrev State := Host × List Call

inductive Action where
  | elapse (ms : Nat)
  | deed (deed : Deed)
  | shim (answer : Answer)
  | call (call : Call)
  | step (position : Nat) (reply : Reply)
  | reaper (reply : Reply)
  | status (reply : Reply)
  | restart (reply : Reply)

/-- Calls that have returned stay; a new manager has none of the others. -/
def Call.isReturned : Call → Bool
  | .returned _ => true
  | _ => false

/-- A call enters the pool as `stopUnit` or `killUnit signal`. -/
def Call.isRequest : Call → Bool
  | .stop _ => true
  | _ => false

def localStep (s : State) : Action → State
  | .elapse ms => ({ s.1 with now := s.1.now + ms }, s.2)
  | .deed deed => ({ s.1 with group := s.1.group.act deed }, s.2)
  | .shim answer =>
      let next := s.1.shim.phase.next answer s.1.now s.1.shim.signalled s.1.group
      ({ s.1 with shim := { s.1.shim with phase := next.1 }, group := next.2 }, s.2)
  | .call call => if call.isRequest then (s.1, s.2 ++ [call]) else s
  | .step position reply => stepAt Call.step s (position, reply)
  | .reaper reply => (s.1.reap reply, s.2)
  | .status reply => (s.1.unitStatus reply, s.2)
  | .restart reply => (s.1.loadUnits reply, s.2.filter Call.isReturned)

/-- `start_transient_service` has returned. -/
def started (remainAfterExit : Bool) : State :=
  (⟨0, ⟨.starting, false⟩, ⟨false, 0⟩, some ⟨remainAfterExit, true, false⟩⟩, [])

/-- Neither the shim nor a process of the service's group is alive. -/
def Host.gone (h : Host) : Prop := h.shim.phase = .exited ∧ h.group.alive = false

/-- After a stop has returned Ok, nothing is alive. -/
def Stopped (s : State) : Prop := .returned true ∈ s.2 → s.1.gone

-- ── an orderly stop ───────────────────────────────────────────────────────────

/-- The call is about to send a signal that ends the shim. -/
def Call.endsShim (reply : Reply) (h : Host) : Call → Bool
  | .stopAndReap _ signal => h.shim.endedBy signal
  | .waiting deadline => !reply.waitFails && decide (deadline ≤ h.now)
  | .polling deadline wake => decide (wake ≤ h.now ∧ deadline ≤ h.now)
  | _ => false

/-- The step ends a shim, if it is alive, before it is done with its group. -/
def cutsShort (s : State) : Action → Bool
  | .shim answer => s.1.shim.failsOn answer s.1.group
  | .step position reply => (s.2[position]?).any (Call.endsShim reply s.1)
  | _ => false

/-- A stop that has taken the unit and has not returned. -/
def Call.underWay : Call → Bool
  | .stop _ | .returned _ => false
  | _ => true

/-- The step misses the unit or lets go of it: a stop beside another one, a failed wait,
    a restart of the manager amid a stop. -/
def losesUnit (s : State) : Action → Bool
  | .step position reply =>
      match s.2[position]? with
      | some (.stop _) => s.2.any Call.underWay
      | some (.waiting _) => reply.waitFails
      | _ => false
  | .reaper reply => reply.waitFails
  | .restart _ => s.2.any Call.underWay
  | _ => false

/-- The condition on a step, in the state before it. -/
structure Orderly (s : State) (a : Action) : Prop where
  cut : cutsShort s a = true → s.1.group.alive = false
  lost : losesUnit s a = true → s.1.shim.phase = .exited

-- ── single steps ──────────────────────────────────────────────────────────────

theorem exited_signalUnit {h : Host} (signal : Signal) (hexited : h.shim.phase = .exited) :
    (h.signalUnit signal).shim.phase = .exited := by
  rw [Host.signalUnit, receive_exited signal hexited]
  exact hexited

/-- What a call's step can do to the host. -/
theorem call_host (reply : Reply) (h : Host) (c : Call) :
    (c.step reply h).1 = h ∨ (c.step reply h).1 = { h with unit := none }
      ∨ ∃ signal, (c.step reply h).1 = h.signalUnit signal
        ∧ (h.shim.endedBy signal = true → c.endsShim reply h = true) := by
  cases c with
  | stop signal =>
      simp only [Call.step]
      split
      · exact Or.inl rfl
      · exact Or.inr (Or.inl rfl)
  | stopAndReap unit signal => exact Or.inr (Or.inr ⟨signal, rfl, id⟩)
  | waiting deadline =>
      simp only [Call.step]
      split
      · exact Or.inl rfl
      · next hok =>
          split
          · exact Or.inl rfl
          · split
            · exact Or.inl rfl
            · next hlate =>
                refine Or.inr (Or.inr ⟨.sigkill, rfl, fun _ => ?_⟩)
                simp [Call.endsShim, hok, Nat.le_of_not_lt hlate]
  | waitingKilled deadline =>
      simp only [Call.step]
      split <;> exact Or.inl rfl
  | polling deadline wake =>
      simp only [Call.step]
      split
      · exact Or.inl rfl
      · next hwake =>
          split
          · exact Or.inl rfl
          · exact Or.inl rfl
          · next hwait =>
              have hlate : deadline ≤ h.now := by
                rw [waitForProcessGroupExit] at hwait
                split at hwait
                · split at hwait <;> cases hwait
                · next hlate => exact Nat.le_of_not_lt hlate
              exact Or.inr (Or.inr ⟨.sigkill, rfl, fun _ =>
                decide_eq_true ⟨Nat.le_of_not_lt hwake, hlate⟩⟩)
  | pollingKilled deadline wake =>
      simp only [Call.step]
      split
      · exact Or.inl rfl
      · split <;> exact Or.inl rfl
  | returned ok => exact Or.inl rfl

theorem exited_call {reply : Reply} {h : Host} (c : Call) (hexited : h.shim.phase = .exited) :
    (c.step reply h).1.shim.phase = .exited := by
  rcases call_host reply h c with heq | heq | ⟨signal, heq, -⟩
  · rw [heq]
    exact hexited
  · rw [heq]
    exact hexited
  · rw [heq]
    exact exited_signalUnit signal hexited

/-- Calls that have seen the shim end, or have ended it. -/
def Call.ended : Call → Bool
  | .waitingKilled _ | .pollingKilled .. | .returned true => true
  | _ => false

theorem not_exists {h : Host} {zombie : Bool} {now deadline : Nat}
    (hwait : waitForProcessGroupExit now deadline (h.shimExists zombie) = some true) :
    h.shim.phase = .exited := by
  have := wait_true hwait
  simpa using this

/-- **ONE STEP OF A STOP**: it returns Ok, or goes on to wait after SIGKILL, once the
    shim has ended. -/
theorem ended_call {reply : Reply} {h : Host} {c c' : Call}
    (hended : c.ended = true → h.shim.phase = .exited)
    (hfound : ∀ signal, c = .stop signal → h.unit = none → h.shim.phase = .exited)
    (hmem : c' ∈ (c.step reply h).2) (hc' : c'.ended = true) :
    (c.step reply h).1.shim.phase = .exited := by
  cases c with
  | stop signal =>
      simp only [Call.step] at hmem ⊢
      split at hmem
      · next hunit => exact hfound signal rfl hunit
      · rw [List.mem_singleton.mp hmem] at hc'
        exact nomatch hc'
  | stopAndReap unit signal =>
      simp only [Call.step] at hmem
      split at hmem
      · rw [List.mem_singleton.mp hmem] at hc'
        exact nomatch hc'
      · rw [List.mem_singleton.mp hmem] at hc'
        exact nomatch hc'
  | waiting deadline =>
      simp only [Call.step] at hmem ⊢
      split at hmem
      · rw [List.mem_singleton.mp hmem] at hc'
        exact nomatch hc'
      · next hok =>
          rw [if_neg hok]
          split at hmem
          · next hexited =>
              rw [if_pos hexited]
              exact hexited
          · next hexited =>
              rw [if_neg hexited]
              split at hmem
              · rw [List.mem_singleton.mp hmem] at hc'
                exact nomatch hc'
              · next hlate =>
                  rw [if_neg hlate]
                  exact receive_sigkill h.shim
  | waitingKilled deadline => exact exited_call _ (hended rfl)
  | polling deadline wake =>
      simp only [Call.step] at hmem ⊢
      split at hmem
      · rw [List.mem_singleton.mp hmem] at hc'
        exact nomatch hc'
      · next hwake =>
          rw [if_neg hwake]
          split at hmem
          · rw [List.mem_singleton.mp hmem] at hc'
            exact nomatch hc'
          · next hwait => exact not_exists hwait
          · exact receive_sigkill h.shim
  | pollingKilled deadline wake => exact exited_call _ (hended rfl)
  | returned ok =>
      rw [List.mem_singleton.mp hmem] at hc'
      exact hended hc'

/-- A stop goes on until it returns, and returns an error only for a failed wait. -/
theorem underWay_call {reply : Reply} {h : Host} {c : Call} (hc : c.underWay = true) :
    (∃ c' ∈ (c.step reply h).2, c'.underWay = true)
      ∨ (∃ c' ∈ (c.step reply h).2, c'.ended = true)
      ∨ ∃ deadline, c = .waiting deadline ∧ reply.waitFails = true := by
  cases c with
  | stop signal => exact nomatch hc
  | stopAndReap unit signal =>
      simp only [Call.step]
      split
      · exact Or.inl ⟨_, List.mem_singleton_self _, rfl⟩
      · exact Or.inl ⟨_, List.mem_singleton_self _, rfl⟩
  | waiting deadline =>
      simp only [Call.step]
      split
      · next hfails => exact Or.inr (Or.inr ⟨deadline, rfl, hfails⟩)
      · split
        · exact Or.inr (Or.inl ⟨_, List.mem_singleton_self _, rfl⟩)
        · split
          · exact Or.inl ⟨_, List.mem_singleton_self _, rfl⟩
          · exact Or.inl ⟨_, List.mem_singleton_self _, rfl⟩
  | waitingKilled deadline =>
      simp only [Call.step]
      split
      · exact Or.inr (Or.inl ⟨_, List.mem_singleton_self _, rfl⟩)
      · exact Or.inl ⟨_, List.mem_singleton_self _, rfl⟩
  | polling deadline wake =>
      simp only [Call.step]
      split
      · exact Or.inl ⟨_, List.mem_singleton_self _, rfl⟩
      · split
        · exact Or.inl ⟨_, List.mem_singleton_self _, rfl⟩
        · exact Or.inr (Or.inl ⟨_, List.mem_singleton_self _, rfl⟩)
        · exact Or.inl ⟨_, List.mem_singleton_self _, rfl⟩
  | pollingKilled deadline wake =>
      simp only [Call.step]
      split
      · exact Or.inl ⟨_, List.mem_singleton_self _, rfl⟩
      · split
        · exact Or.inl ⟨_, List.mem_singleton_self _, rfl⟩
        · exact Or.inr (Or.inl ⟨_, List.mem_singleton_self _, rfl⟩)
  | returned ok => exact nomatch hc

-- ── the invariant ─────────────────────────────────────────────────────────────

structure Inv (s : State) : Prop where
  /-- a shim that is done with its group has left none -/
  settled : s.1.shim.phase.settled = true → s.1.group.alive = false
  /-- a stop is done once the shim has ended -/
  ended : ∀ c ∈ s.2, c.ended = true → s.1.shim.phase = .exited
  /-- the unit of a live shim is in the map or being stopped -/
  held : s.1.unit = none → s.1.shim.phase = .exited ∨ ∃ c ∈ s.2, c.underWay = true

theorem Inv.stopped {s : State} (h : Inv s) : Stopped s := by
  intro hreturned
  have hexited := h.ended _ hreturned rfl
  exact ⟨hexited, h.settled (by rw [hexited]; rfl)⟩

theorem inv_started (remainAfterExit : Bool) : Inv (started remainAfterExit) where
  settled := fun _ => rfl
  ended := fun _ hc => (nomatch hc)
  held := fun h => (nomatch h)

/-- The shim's own step. -/
theorem inv_shim {s : State} (answer : Answer) (h : Inv s) (hok : Orderly s (.shim answer)) :
    Inv (localStep s (.shim answer)) := by
  have hstays : s.1.shim.phase = .exited →
      (s.1.shim.phase.next answer s.1.now s.1.shim.signalled s.1.group).1 = .exited := by
    intro hexited
    rw [hexited]
    rfl
  refine ⟨settled_next h.settled hok.cut, fun c hc hended => hstays (h.ended c hc hended), ?_⟩
  intro hunit
  exact (h.held hunit).imp_left hstays

/-- A step that only looks at the unit: it lets go of it once the shim has ended. -/
theorem inv_unit {s : State} {unit : Option LocalUnit} {calls : List Call} (h : Inv s)
    (hcalls : ∀ c ∈ calls, c ∈ s.2)
    (hunit : unit = none → s.1.unit = none ∨ s.1.shim.phase = .exited)
    (hunderWay : s.1.shim.phase = .exited ∨ ∀ c ∈ s.2, c.underWay = true → c ∈ calls) :
    Inv ({ s.1 with unit := unit }, calls) := by
  refine ⟨h.settled, fun c hc hended => h.ended c (hcalls c hc) hended, fun hnone => ?_⟩
  rcases hunderWay with hexited | hunderWay
  · exact Or.inl hexited
  · rcases hunit hnone with hnone | hexited
    · rcases h.held hnone with hexited | ⟨c, hc, hway⟩
      · exact Or.inl hexited
      · exact Or.inr ⟨c, hunderWay c hc hway, hway⟩
    · exact Or.inl hexited

theorem exited_of_childless {h : Host} {reply : Reply} {unit : LocalUnit}
    (hkeep : h.keepsChildless reply unit ≠ true) : h.shim.phase = .exited := by
  simp only [Host.keepsChildless, Host.shimExists, processGroupExists, ne_eq, Bool.or_eq_true,
    decide_eq_true_eq, not_or, not_not] at hkeep
  exact hkeep.2.1

theorem reap_none {h : Host} {reply : Reply} (hwait : reply.waitFails = true → h.shim.phase = .exited)
    (hnone : (h.reap reply).unit = none) : h.unit = none ∨ h.shim.phase = .exited := by
  cases hunit : h.unit with
  | none => exact Or.inl rfl
  | some unit =>
      right
      simp only [Host.reap, hunit, Option.bind_some] at hnone
      split at hnone
      · split at hnone
        · next hfails => exact hwait hfails
        · split at hnone
          · assumption
          · exact nomatch hnone
      · split at hnone
        · exact nomatch hnone
        · next hkeep => exact exited_of_childless hkeep

theorem unitStatus_none {h : Host} {reply : Reply} (hnone : (h.unitStatus reply).unit = none) :
    h.unit = none ∨ h.shim.phase = .exited := by
  cases hunit : h.unit with
  | none => exact Or.inl rfl
  | some unit =>
      right
      simp only [Host.unitStatus, hunit, Option.bind_some] at hnone
      split at hnone
      · split at hnone
        · exact nomatch hnone
        · split at hnone
          · exact nomatch hnone
          · exact nomatch hnone
      · split at hnone
        · exact nomatch hnone
        · next hkeep => exact exited_of_childless hkeep

theorem loadUnits_none {h : Host} {reply : Reply} (hnone : (h.loadUnits reply).unit = none) :
    h.unit = none ∨ h.shim.phase = .exited := by
  cases hunit : h.unit with
  | none => exact Or.inl rfl
  | some unit =>
      right
      simp only [Host.loadUnits, hunit, Option.bind_some] at hnone
      split at hnone
      · exact nomatch hnone
      · next hkeep => exact exited_of_childless hkeep

/-- A stop that ends the shim, ends it with its group. -/
theorem settled_call {reply : Reply} {h : Host} {c : Call}
    (hsettled : h.shim.phase.settled = true → h.group.alive = false)
    (hcut : c.endsShim reply h = true → h.group.alive = false)
    (hafter : (c.step reply h).1.shim.phase.settled = true) :
    (c.step reply h).1.group.alive = false := by
  rcases call_host reply h c with heq | heq | ⟨signal, heq, hends⟩
  · rw [heq] at hafter ⊢
    exact hsettled hafter
  · rw [heq] at hafter ⊢
    exact hsettled hafter
  · rw [heq] at hafter ⊢
    exact settled_receive hsettled (fun hended => hcut (hends hended)) hafter

/-- A stop takes the unit and keeps it until it returns. -/
theorem held_call {s : State} {position : Nat} {reply : Reply} {c : Call} (h : Inv s)
    (hok : Orderly s (.step position reply)) (hget : s.2[position]? = some c)
    (hended : ∀ c' ∈ (c.step reply s.1).2, c'.ended = true →
      (c.step reply s.1).1.shim.phase = .exited)
    (hunit : (c.step reply s.1).1.unit = none) :
    (c.step reply s.1).1.shim.phase = .exited
      ∨ ∃ c' ∈ (stepAt Call.step s (position, reply)).2, c'.underWay = true := by
  have hlost : losesUnit s (.step position reply) = true → s.1.shim.phase = .exited := hok.lost
  simp only [losesUnit, hget] at hlost
  have hnew : ∀ c' ∈ (c.step reply s.1).2, c' ∈ (stepAt Call.step s (position, reply)).2 :=
    fun c' hmem => (mem_stepAt_iff Call.step hget).mpr (Or.inl hmem)
  -- this call goes on, or another one does
  have hgoes : c.underWay = true → (c.step reply s.1).1.shim.phase = .exited
      ∨ ∃ c' ∈ (stepAt Call.step s (position, reply)).2, c'.underWay = true := by
    intro hway
    rcases @underWay_call reply s.1 c hway with
      ⟨c', hmem, hway'⟩ | ⟨c', hmem, hended'⟩ | ⟨deadline, rfl, hfails⟩
    · exact Or.inr ⟨c', hnew c' hmem, hway'⟩
    · exact Or.inl (hended c' hmem hended')
    · exact Or.inl (exited_call _ (hlost hfails))
  have hother : s.1.unit = none → (c.step reply s.1).1.shim.phase = .exited
      ∨ ∃ c' ∈ (stepAt Call.step s (position, reply)).2, c'.underWay = true := by
    intro hbefore
    rcases h.held hbefore with hexited | ⟨c', hc', hway⟩
    · exact Or.inl (exited_call c hexited)
    · rcases (mem_iff_eraseIdx hget).mp hc' with rfl | hrest
      · exact hgoes hway
      · exact Or.inr ⟨c', (mem_stepAt_iff Call.step hget).mpr (Or.inr hrest), hway⟩
  cases c with
  | stop signal =>
      cases hbefore : s.1.unit with
      | none => exact hother hbefore
      | some unit =>
          refine Or.inr ⟨.stopAndReap unit signal, hnew _ ?_, rfl⟩
          simp only [Call.step, hbefore]
          exact List.mem_singleton_self _
  | returned ok => exact hother hunit
  | stopAndReap | waiting | waitingKilled | polling | pollingKilled => exact hgoes rfl

/-- A step of a stop. -/
theorem inv_call {s : State} {position : Nat} {reply : Reply} {c : Call} (h : Inv s)
    (hok : Orderly s (.step position reply)) (hget : s.2[position]? = some c) :
    Inv (localStep s (.step position reply)) := by
  have hc := List.mem_of_getElem? hget
  have hlost : losesUnit s (.step position reply) = true → s.1.shim.phase = .exited := hok.lost
  simp only [losesUnit, hget] at hlost
  have hworld : (localStep s (.step position reply)).1 = (c.step reply s.1).1 := by
    rw [localStep, stepAt_some Call.step hget]
  have hfound : ∀ signal, c = .stop signal → s.1.unit = none → s.1.shim.phase = .exited := by
    rintro signal rfl hunit
    rcases h.held hunit with hexited | ⟨c', hc', hway⟩
    · exact hexited
    · exact hlost (List.any_eq_true.mpr ⟨c', hc', hway⟩)
  have hended : ∀ c' ∈ (c.step reply s.1).2, c'.ended = true →
      (c.step reply s.1).1.shim.phase = .exited := fun c' hmem hc' =>
    ended_call (fun hended => h.ended c (List.mem_of_getElem? hget) hended) hfound hmem hc'
  refine ⟨?_, fun c' hmem hended' => ?_, ?_⟩
  · rw [hworld]
    refine settled_call h.settled (fun hends => hok.cut ?_)
    rw [cutsShort, hget]
    exact hends
  · rw [hworld]
    rcases mem_stepAt Call.step hget hmem with hmem | hmem
    · exact hended c' hmem hended'
    · exact exited_call c (h.ended c' hmem hended')
  · rw [hworld]
    exact held_call h hok hget hended

/-- **ONE ORDERLY STEP** of the manager, the shim or the service. -/
theorem inv_step (s : State) (a : Action) (h : Inv s) (hok : Orderly s a) :
    Inv (localStep s a) := by
  cases a with
  | elapse ms => exact ⟨h.settled, h.ended, h.held⟩
  | deed deed => exact ⟨fun hs => Group.alive_act (h.settled hs) deed, h.ended, h.held⟩
  | shim answer => exact inv_shim answer h hok
  | call call =>
      rw [localStep]
      split
      · next hrequest =>
          refine ⟨h.settled, fun c hc hended => ?_, fun hunit => ?_⟩
          · rcases List.mem_append.mp hc with hc | hc
            · exact h.ended c hc hended
            · rw [List.mem_singleton.mp hc] at hended
              cases call with
              | stop signal => exact nomatch hended
              | _ => exact nomatch hrequest
          · refine (h.held hunit).imp_right ?_
            rintro ⟨c, hc, hway⟩
            exact ⟨c, List.mem_append_left _ hc, hway⟩
      · exact h
  | step position reply =>
      cases hget : s.2[position]? with
      | none =>
          rw [localStep, stepAt_none Call.step hget]
          exact h
      | some c => exact inv_call h hok hget
  | reaper reply =>
      exact inv_unit h (fun c hc => hc) (reap_none hok.lost) (Or.inr fun c hc _ => hc)
  | status reply =>
      exact inv_unit h (fun c hc => hc) unitStatus_none (Or.inr fun c hc _ => hc)
  | restart reply =>
      refine inv_unit h (fun c hc => (List.mem_filter.mp hc).1) loadUnits_none ?_
      by_cases hway : s.2.any Call.underWay = true
      · exact Or.inl (hok.lost hway)
      · exact Or.inr fun c hc hc' => absurd (List.any_eq_true.mpr ⟨c, hc, hc'⟩) hway

/-- **STOPPING A UNIT STOPS ITS SERVICE**: in every run of a started unit whose steps are
    orderly. -/
theorem stopping_stops (remainAfterExit : Bool) {as : List Action}
    (hok : Along localStep Orderly (started remainAfterExit) as) :
    Along localStep (fun s a => Stopped (localStep s a)) (started remainAfterExit) as :=
  along_of_guarded localStep inv_step
    (fun s a h hok => (inv_step s a h hok).stopped) as _ (inv_started remainAfterExit) hok

-- ── a service that exits, and one that ignores SIGTERM ────────────────────────

instance decidableOrderly (s : State) (a : Action) : Decidable (Orderly s a) :=
  decidable_of_iff ((cutsShort s a = true → s.1.group.alive = false)
      ∧ (losesUnit s a = true → s.1.shim.phase = .exited))
    ⟨fun h => ⟨h.1, h.2⟩, fun h => ⟨h.cut, h.lost⟩⟩

/-- Everything succeeds. -/
def plain : Answer where
  spawns := true
  opens := true
  waited := true
  childFirst := true
  zombie := false
  pipesClosed := true

def silent : Reply := ⟨false, false⟩

/-- The service runs, `stop_unit` has sent SIGTERM to the shim and the shim to the
    service. -/
def termSent : List Action :=
  [.shim plain, .shim plain, .call stopUnit, .step 0 silent, .step 0 silent, .shim plain]

/-- The service exits a second later; the shim sees it and exits. -/
def exitsInTime : List Action :=
  termSent ++ [.elapse 1000, .deed .childExits, .shim plain, .shim plain, .shim plain,
    .step 0 silent]

theorem stopping_stops_in_time :
    Along localStep (fun s a => Stopped (localStep s a)) (started false) exitsInTime :=
  stopping_stops false (by decide)

/-- The service ignores SIGTERM; after three seconds the manager kills the shim. -/
def ignoresTerm : List Action := termSent ++ [.elapse 3000, .step 0 silent]

theorem service_survives : ¬ ∀ (remainAfterExit : Bool) (as : List Action),
    Along localStep (fun s a => Stopped (localStep s a)) (started remainAfterExit) as := by
  intro h
  have hlast := ((along_append localStep _ (started false) ignoresTerm [.step 0 silent]).mp
    (h false _)).2.1
  have halive : (localStep (run localStep (started false) ignoresTerm)
      (.step 0 silent)).1.group.alive = true := by
    decide
  have hreturned : Call.returned true ∈ (localStep (run localStep (started false) ignoresTerm)
      (.step 0 silent)).2 := by
    decide
  rw [(hlast hreturned).2] at halive
  exact nomatch halive

end DevstackLocalSystemd
