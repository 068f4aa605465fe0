import Devstack.Model

/-! # Readiness — the waiting evaluator and the one-shot evaluator

    `src/services/readiness/coordinator.rs` and `probes.rs`.  What a probe can
    see (ports, HTTP replies, files, commands, unit status) is an
    `Observation`; a `Timeline` gives the observation and the clock reading of
    every tick, one tick for each `await` or clock read of the code.  The
    regular-expression engine is third-party code and stays a parameter.

    The waiting loops run on fuel. -/

namespace DevstackReadiness

open DevstackModel

/-- `systemd::UnitStatus`. -/
structure UnitStatus where
  activeState : String
  subState : String
  result : Option String
  deriving DecidableEq, Repr

/-- What a path holds: nothing, something `read_to_string` fails on, or text. -/
inductive FileView where
  | missing
  | unreadable
  | text (content : String)
  deriving DecidableEq, Repr

/-- The outside world at one instant. -/
structure Observation where
  connects : Port → Bool
  httpGet : String → Except String UInt16
  file : String → FileView
  runCommand : String → String → BTreeMap String → Except String Bool
  unitStatus : String → Except String (Option UnitStatus)

/-- The `regex` crate: `compile` is `Regex::new`, its value `is_match`. -/
structure RegexEngine where
  compile : String → Except String (String → Bool)

/-- `ReadinessContext`; `systemd` says whether a manager is attached. -/
structure ReadinessContext where
  port : Option Port
  scheme : String
  logPath : String
  cwd : String
  env : BTreeMap String
  unitName : Option String
  systemd : Bool

-- ── probes.rs ─────────────────────────────────────────────────────────────────

def tcpReady (obs : Observation) (port : Port) : Bool := obs.connects port

def isSuccessStatus (code min max : UInt16) : Bool := decide (min ≤ code) && decide (code ≤ max)

def httpReady (obs : Observation) (port : Port) (path : String) (min max : UInt16) :
    Except String Bool :=
  match obs.httpGet s!"http://127.0.0.1:{port}{path}" with
  | .error err => .error err
  | .ok status => .ok (isSuccessStatus status min max)

def logRegexReady (engine : RegexEngine) (obs : Observation) (path pattern : String) :
    Except String Bool :=
  match obs.file path with
  | .text content =>
      match engine.compile pattern with
      | .error _ => .error "compile log regex"
      | .ok isMatch => .ok (isMatch content)
  | _ => .ok false

def cmdReady (obs : Observation) (command : String) (ctx : ReadinessContext) :
    Except String Bool :=
  match obs.runCommand command ctx.cwd ctx.env with
  | .error _ => .error "run readiness command"
  | .ok success => .ok success

def exitReadyOnce (obs : Observation) (ctx : ReadinessContext) : Except String Bool :=
  if ctx.systemd = false then .error "exit readiness requires systemd"
  else
    match ctx.unitName with
    | none => .error "exit readiness requires unit name"
    | some unitName =>
        match obs.unitStatus unitName with
        | .error err => .error err
        | .ok none => .ok false
        | .ok (some status) =>
            if status.activeState = "failed" then
              let result := status.result.getD "unknown"
              .error s!"service failed (result={result})"
            else if status.activeState = "active" ∧ status.subState = "exited"
                ∧ (status.result = some "success" ∨ status.result = none) then .ok true
            else if status.activeState = "inactive" then
              if status.result = some "success" then .ok true
              else if (status.subState = "exited" ∨ status.subState = "dead")
                  ∧ status.result = none then .ok true
              else
                match status.result with
                | some result => .error s!"service exited (result={result})"
                | none => .ok false
            else .ok false

-- ── coordinator.rs ────────────────────────────────────────────────────────────

def checkReadyOnce (engine : RegexEngine) (spec : ReadinessSpec) (ctx : ReadinessContext)
    (obs : Observation) : Except String Bool :=
  match spec.kind with
  | .tcp =>
      match ctx.port with
      | some port => .ok (tcpReady obs port)
      | none => .error "TCP readiness check requires port"
  | .http path expectMin expectMax =>
      match ctx.port with
      | some port => httpReady obs port path expectMin expectMax
      | none => .error "HTTP readiness check requires port"
  | .logRegex pattern => logRegexReady engine obs ctx.logPath pattern
  | .cmd command => cmdReady obs command ctx
  | .exit => exitReadyOnce obs ctx
  -- "Delay checks are handled in wait_for_ready"
  | .delay _ => .ok false
  | .none => .ok true

def readinessProcessFailure (ctx : ReadinessContext) (obs : Observation) :
    Except String (Option String) :=
  if ctx.systemd = false then .ok none
  else
    match ctx.unitName with
    | none => .ok none
    | some unitName =>
        match obs.unitStatus unitName with
        | .error err => .error err
        | .ok none => .ok none
        | .ok (some status) =>
            if status.activeState = "failed" then
              let result := status.result.getD "unknown"
              .ok (some (s!"service exited before readiness (active_state=failed, " ++
                s!"sub_state={status.subState}, result={result})"))
            else if status.activeState = "inactive" then
              if status.result = some "success" then .ok none
              else
                match status.result with
                | some result =>
                    .ok (some (s!"service exited before readiness (active_state=inactive, " ++
                      s!"sub_state={status.subState}, result={result})"))
                | none => .ok none
            else .ok none

/-- The observation and the clock reading (in milliseconds) of every tick. -/
structure Timeline where
  obs : Nat → Observation
  clock : Nat → Nat

/-- What a wait returns: nothing yet (out of fuel), its error, or the tick of
    the observation that made it return `Ok(())`. -/
abbrev WaitResult := Option (Except String Nat)

def timedOut : Option String → String
  | some err => s!"readiness timed out: {err}"
  | none => "readiness timed out"

/-- `last_err` after one more probe. -/
def lastError (probed : Except String Bool) (lastErr : Option String) : Option String :=
  match probed with
  | .error err => some err
  | .ok _ => lastErr

/-- The shared loop of `wait_for_ready`. -/
def waitLoop (engine : RegexEngine) (spec : ReadinessSpec) (ctx : ReadinessContext)
    (tl : Timeline) (deadline : Nat) : Nat → Nat → Option String → WaitResult
  | 0, _, _ => none
  | fuel + 1, tick, lastErr =>
      match readinessProcessFailure ctx (tl.obs tick) with
      | .error err => some (.error err)
      | .ok (some reason) => some (.error reason)
      | .ok none =>
          match checkReadyOnce engine spec ctx (tl.obs (tick + 1)) with
          | .ok true => some (.ok (tick + 1))
          | probed =>
              match readinessProcessFailure ctx (tl.obs (tick + 2)) with
              | .error err => some (.error err)
              | .ok (some reason) => some (.error reason)
              | .ok none =>
                  if deadline ≤ tl.clock (tick + 3) then
                    some (.error (timedOut (lastError probed lastErr)))
                  else waitLoop engine spec ctx tl deadline fuel (tick + 4)
                    (lastError probed lastErr)

/-- `wait_for_delay`: no observation is made. -/
def waitForDelay (duration timeout : Nat) : WaitResult :=
  if timeout < duration then some (.error "readiness timed out") else some (.ok 0)

/-- `path.exists() && let Ok(content) = read_to_string(path) && regex.is_match(&content)`,
    the two looks at the file being two ticks. -/
def logFound (isMatch : String → Bool) (path : String) (looked read : Observation) : Bool :=
  match looked.file path, read.file path with
  | .missing, _ => false
  | _, .text content => isMatch content
  | _, _ => false

/-- The loop of `wait_for_log_regex`; the file watcher only wakes it earlier. -/
def logRegexLoop (isMatch : String → Bool) (path : String) (tl : Timeline) (deadline : Nat) :
    Nat → Nat → WaitResult
  | 0, _ => none
  | fuel + 1, tick =>
      if logFound isMatch path (tl.obs tick) (tl.obs (tick + 1)) then some (.ok (tick + 1))
      else if deadline ≤ tl.clock (tick + 2) then some (.error "readiness timed out")
      else logRegexLoop isMatch path tl deadline fuel (tick + 3)

def waitForLogRegex (engine : RegexEngine) (path pattern : String) (timeout : Nat)
    (tl : Timeline) (fuel : Nat) : WaitResult :=
  match engine.compile pattern with
  | .error _ => some (.error "compile regex")
  | .ok isMatch => logRegexLoop isMatch path tl (tl.clock 0 + timeout) fuel 1

/-- The loop of `wait_for_exit_success`. -/
def exitLoop (ctx : ReadinessContext) (tl : Timeline) (deadline : Nat) :
    Nat → Nat → Option String → WaitResult
  | 0, _, _ => none
  | fuel + 1, tick, lastErr =>
      match exitReadyOnce (tl.obs tick) ctx with
      | .ok true => some (.ok tick)
      | probed =>
          if deadline ≤ tl.clock (tick + 1) then
            some (.error (timedOut (lastError probed lastErr)))
          else exitLoop ctx tl deadline fuel (tick + 2) (lastError probed lastErr)

def waitForExitSuccess (ctx : ReadinessContext) (timeout : Nat) (tl : Timeline) (fuel : Nat) :
    WaitResult :=
  exitLoop ctx tl (tl.clock 0 + timeout) fuel 1 none

def waitForReady (engine : RegexEngine) (spec : ReadinessSpec) (ctx : ReadinessContext)
    (tl : Timeline) (fuel : Nat) : WaitResult :=
  match spec.kind with
  | .delay duration => waitForDelay duration spec.timeout
  | .exit => waitForExitSuccess ctx spec.timeout tl fuel
  | .logRegex pattern => waitForLogRegex engine ctx.logPath pattern spec.timeout tl fuel
  | _ => waitLoop engine spec ctx tl (tl.clock 0 + spec.timeout) fuel 1 none

/-- The clock passes every bound and stays past it. -/
def ClockRuns (tl : Timeline) : Prop := ∀ bound, ∃ n, ∀ k, n ≤ k → bound ≤ tl.clock k

/-! ## The two evaluators compared -/

/-- From tick `k` on, every observation is the one of tick `k`. -/
def ConstantFrom (tl : Timeline) (k : Nat) : Prop := ∀ j, k ≤ j → tl.obs j = tl.obs k

section Agreement

variable {engine : RegexEngine} {spec : ReadinessSpec} {ctx : ReadinessContext}
variable {tl : Timeline}

/-- The shared loop returns `Ok` only on an observation the one-shot check accepts. -/
theorem waitLoop_ok {deadline k : Nat} :
    ∀ {fuel tick : Nat} {lastErr : Option String},
      waitLoop engine spec ctx tl deadline fuel tick lastErr = some (.ok k) →
        checkReadyOnce engine spec ctx (tl.obs k) = .ok true := by
  intro fuel
  induction fuel with
  | zero => intro tick lastErr h; exact nomatch h
  | succ fuel ih =>
      intro tick lastErr h
      rw [waitLoop] at h
      split at h
      · exact nomatch h
      · exact nomatch h
      · split at h
        · rename_i hready
          have hk : tick + 1 = k := Except.ok.inj (Option.some.inj h)
          rw [← hk]; exact hready
        · split at h
          · exact nomatch h
          · exact nomatch h
          · split at h
            · exact nomatch h
            · exact ih h

theorem logFound_true {isMatch : String → Bool} {path : String} {looked read : Observation}
    (h : logFound isMatch path looked read = true) :
    ∃ content, read.file path = .text content ∧ isMatch content = true := by
  rw [logFound] at h
  split at h
  · exact nomatch h
  · rename_i content hread _
    exact ⟨content, hread, h⟩
  · exact nomatch h

/-- The log loop returns `Ok` only on a readable file whose content matches. -/
theorem logRegexLoop_ok {isMatch : String → Bool} {path : String} {deadline k : Nat} :
    ∀ {fuel tick : Nat}, logRegexLoop isMatch path tl deadline fuel tick = some (.ok k) →
      ∃ content, (tl.obs k).file path = .text content ∧ isMatch content = true := by
  intro fuel
  induction fuel with
  | zero => intro tick h; exact nomatch h
  | succ fuel ih =>
      intro tick h
      rw [logRegexLoop] at h
      split at h
      · rename_i hfound
        have hk : tick + 1 = k := Except.ok.inj (Option.some.inj h)
        rw [← hk]
        exact logFound_true hfound
      · split at h
        · exact nomatch h
        · exact ih h

/-- A wait that returned `Ok`, for any kind but `Exit` and `Delay`, ended on an
    observation the one-shot check accepts. -/
theorem waitForReady_ok {fuel k : Nat} (hexit : spec.kind ≠ .exit)
    (hdelay : ∀ duration, spec.kind ≠ .delay duration)
    (hok : waitForReady engine spec ctx tl fuel = some (.ok k)) :
    checkReadyOnce engine spec ctx (tl.obs k) = .ok true := by
  cases hkind : spec.kind with
  | delay duration => exact absurd hkind (hdelay duration)
  | exit => exact absurd hkind hexit
  | logRegex pattern =>
      simp only [waitForReady, hkind, waitForLogRegex] at hok
      cases hcompile : engine.compile pattern with
      | error err => rw [hcompile] at hok; exact nomatch hok
      | ok isMatch =>
          rw [hcompile] at hok
          obtain ⟨content, hread, hmatch⟩ := logRegexLoop_ok hok
          simp only [checkReadyOnce, hkind, logRegexReady, hread, hcompile, hmatch]
  | tcp | http _ _ _ | cmd _ | none =>
      simp only [waitForReady, hkind] at hok
      exact waitLoop_ok hok

/-- The one-shot check never accepts a delay. -/
theorem checkReadyOnce_delay {duration : Nat} (hkind : spec.kind = .delay duration)
    (obs : Observation) : checkReadyOnce engine spec ctx obs = .ok false := by
  simp only [checkReadyOnce, hkind]

end Agreement

end DevstackReadiness
