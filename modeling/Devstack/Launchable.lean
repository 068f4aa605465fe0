import Devstack.Prepare
import Devstack.Readiness

/-! # Launchable configurations — what validation leaves to the launch

    `ConfigFile::validate` accepts a configuration; a launch of one of its stacks or
    globals then sorts the services, draws a run id, prepares every service and waits
    for it.  Each of these has a condition of its own, in `plan.rs`, `paths.rs`,
    `prepare.rs` and `coordinator.rs`.

    `launchable_iff` says which accepted configurations meet them.  The sort succeeds
    for all; the run ids, the watch patterns and the readiness checks need more than
    validation asks for, and `unlaunchable` has an accepted configuration without
    each. -/

namespace DevstackLaunchable

open DevstackModel DevstackConfig DevstackLaunch DevstackExclusivity DevstackValidate DevstackPrepare
  DevstackReadiness DevstackLogFmt

-- ── commands/runs.rs ──────────────────────────────────────────────────────────

/-- `generate_run_id`, with the digits it draws. -/
def generateRunId (stack : String) (draws : Fin 8 → Fin 16) : String :=
  stack ++ "-" ++ String.ofList ((List.ofFn draws).map (fun digit => Nat.digitChar digit.val))

-- ── the outside ───────────────────────────────────────────────────────────────

/-- What libraries and programs may do at all: the `regex` crate, the statuses with
    which the HTTP client can return from a URL, the commands that can succeed. -/
structure Outside where
  engine : RegexEngine
  answers : String → UInt16 → Bool
  succeeds : String → Bool

/-- The outside may look like this. -/
structure Outside.Shows (outside : Outside) (obs : Observation) : Prop where
  http : ∀ url status, obs.httpGet url = .ok status → outside.answers url status = true
  command : ∀ command cwd env, obs.runCommand command cwd env = .ok true →
    outside.succeeds command = true

/-- A launch: the disk, and the arguments that every service of a stack, or every global,
    is prepared with. -/
structure Setting where
  outside : Outside
  tools : Tools
  files : Files
  args : Option String → String → PrepareArgs

/-- The contexts in which a service is waited for. -/
structure Awaited (port : Option Port) (ctx : ReadinessContext) : Prop where
  port : ctx.port = port
  unit : ctx.unitName.isSome = true
  systemd : ctx.systemd = true

-- ── what is asked of a configuration ──────────────────────────────────────────

/-- Some behaviour of the outside makes the wait return `Ok`. -/
def CanBecomeReady (outside : Outside) (spec : ReadinessSpec) (ctx : ReadinessContext) : Prop :=
  ∃ tl : Timeline, (∀ n, outside.Shows (tl.obs n)) ∧ ClockRuns tl
    ∧ ∃ fuel k, waitForReady outside.engine spec ctx tl fuel = some (.ok k)

section Service

variable (setting : Setting) (args : PrepareArgs) (name : String) (svc : ServiceConfig)

/-- A service that cannot be prepared cannot be without `auto_restart` either. -/
def WatchesPass : Prop :=
  ∀ err, prepareService setting.tools setting.files args name svc = .error err →
    ∃ err', prepareService setting.tools setting.files args name { svc with autoRestart := false }
      = .error err'

/-- The service has a readiness spec, and can become ready under it. -/
def ReadinessPasses : Prop :=
  ∃ spec, readinessSpec svc (args.listenPort name).isSome = .ok spec
    ∧ ∀ ctx, Awaited (args.listenPort name) ctx → CanBecomeReady setting.outside spec ctx

def ServiceLaunchable : Prop :=
  WatchesPass setting args name svc ∧ ReadinessPasses setting args name svc

end Service

def StackLaunchable (setting : Setting) (config : ConfigFile) (stackName : String)
    (stack : StackConfig) : Prop :=
  (∃ plan, stackPlan config stackName = .ok plan)
    ∧ (∀ draws, validateNameForPathComponent "run id" (generateRunId stackName draws) = .ok ())
    ∧ ∀ name svc, stack.services[name]? = some svc →
        ServiceLaunchable setting (setting.args (some stackName) name) name svc

/-- Every stack and every global of the configuration can be launched. -/
def Launchable (setting : Setting) (config : ConfigFile) : Prop :=
  (∀ stackName stack, config.stackConfigs[stackName]? = some stack →
      StackLaunchable setting config stackName stack)
    ∧ ∀ globals, config.globals = some globals → ∀ name svc, globals[name]? = some svc →
        ServiceLaunchable setting (setting.args none name) name svc

-- ── what validation leaves out ────────────────────────────────────────────────

def isBlank (text : String) : Bool := text.toList.all isWhitespace

section Service

variable (setting : Setting) (args : PrepareArgs) (name : String) (svc : ServiceConfig)

/-- A service that restarts by itself, and can be prepared otherwise, has a pattern that
    does not render to blanks. -/
def WatchesSomething : Prop :=
  svc.autoRestart = true →
    (∃ prepared, prepareService setting.tools setting.files args name
      { svc with autoRestart := false } = .ok prepared) →
    ∃ pattern ∈ svc.watch, ∃ text,
      renderTemplate setting.tools args.context pattern = .ok text ∧ isBlank text = false

/-- What a readiness check needs: a port to connect to, a status that the client can
    return, a pattern that compiles and matches something, a command that can succeed, a
    delay within the timeout. -/
def Answerable (outside : Outside) (port : Option Port) (timeout : Nat) : ReadinessKind → Prop
  | .tcp => port.isSome = true
  | .http path expectMin expectMax =>
      ∃ p status, port = some p ∧ isSuccessStatus status expectMin expectMax = true
        ∧ outside.answers s!"http://127.0.0.1:{p}{path}" status = true
  | .logRegex pattern =>
      ∃ isMatch content, outside.engine.compile pattern = .ok isMatch ∧ isMatch content = true
  | .cmd command => outside.succeeds command = true
  | .delay duration => duration ≤ timeout
  | .exit | .none => True

def ReadinessAnswerable : Prop :=
  ∀ spec, readinessSpec svc (args.listenPort name).isSome = .ok spec →
    Answerable setting.outside (args.listenPort name) spec.timeout spec.kind

def ServiceComplete : Prop :=
  WatchesSomething setting args name svc ∧ ReadinessAnswerable setting args name svc

end Service

/-- The stack's name has the characters of names only, and its services are complete. -/
def StackComplete (setting : Setting) (stackName : String) (stack : StackConfig) : Prop :=
  stackName.toList.all isNameChar = true
    ∧ ∀ name svc, stack.services[name]? = some svc →
        ServiceComplete setting (setting.args (some stackName) name) name svc

def Complete (setting : Setting) (config : ConfigFile) : Prop :=
  (∀ stackName stack, config.stackConfigs[stackName]? = some stack →
      StackComplete setting stackName stack)
    ∧ ∀ globals, config.globals = some globals → ∀ name svc, globals[name]? = some svc →
        ServiceComplete setting (setting.args none name) name svc

-- ── run ids ───────────────────────────────────────────────────────────────────

theorem isNameChar_digitChar : ∀ digit : Fin 16, isNameChar (Nat.digitChar digit.val) = true := by
  decide

theorem generateRunId_toList (stack : String) (draws : Fin 8 → Fin 16) :
    (generateRunId stack draws).toList
      = stack.toList ++ '-' :: (List.ofFn draws).map (fun digit => Nat.digitChar digit.val) := by
  simp [generateRunId]

/-- **WHICH STACKS GET RUN IDS** that are valid path components. -/
theorem generateRunId_valid {stack : String} {draws : Fin 8 → Fin 16} :
    validateNameForPathComponent "run id" (generateRunId stack draws) = .ok ()
      ↔ stack.toList.all isNameChar = true := by
  have hlist := generateRunId_toList stack draws
  have hdash : '-' ∈ (generateRunId stack draws).toList := by
    rw [hlist]
    exact List.mem_append_right _ List.mem_cons_self
  have hlong : 2 < (generateRunId stack draws).toList.length := by
    rw [hlist, List.length_append, List.length_cons, List.length_map, List.length_ofFn]
    omega
  have hother : ∀ {text : String}, text.toList.length ≤ 2 → generateRunId stack draws ≠ text := by
    rintro text htext rfl
    omega
  rw [validateName_ok, List.all_eq_true]
  constructor
  · rintro ⟨-, -, -, hchars⟩ ch hch
    rw [hlist] at hchars
    exact hchars ch (List.mem_append_left _ hch)
  · intro hchars
    refine ⟨hother (by decide), hother (by decide), hother (by decide), fun ch hch => ?_⟩
    rw [hlist] at hch
    rcases List.mem_append.mp hch with hch | hch
    · exact hchars ch hch
    · rcases List.mem_cons.mp hch with rfl | hch
      · decide
      · obtain ⟨digit, -, rfl⟩ := List.mem_map.mp hch
        exact isNameChar_digitChar digit

-- ── watch patterns ────────────────────────────────────────────────────────────

section Watches

variable {setting : Setting} {args : PrepareArgs} {name : String} {svc : ServiceConfig}

/-- The rendered patterns. -/
theorem mem_renderPatterns {tools : Tools} {ctx : TemplateContext} {text : String}
    {patterns : List String} :
    ∀ {texts : List String}, renderPatterns tools ctx patterns = .ok texts →
      (text ∈ texts ↔ ∃ pattern ∈ patterns, renderTemplate tools ctx pattern = .ok text) := by
  induction patterns with
  | nil =>
      intro texts h
      obtain rfl := Except.ok.inj h
      simp
  | cons pattern patterns ih =>
      intro texts h
      simp only [renderPatterns, bind_ok] at h
      obtain ⟨first, hfirst, rest, hrest, hcons⟩ := h
      obtain rfl := Except.ok.inj hcons
      rw [List.mem_cons, ih hrest, List.exists_mem_cons_iff, hfirst, Except.ok.injEq, eq_comm]

/-- The check of the patterns of a service. -/
theorem checkWatches_ok {patterns : List String} :
    checkWatches name svc patterns = .ok ()
      ↔ (svc.autoRestart = true → ∃ text ∈ patterns, isBlank text = false) := by
  have hall : (∃ text ∈ patterns, isBlank text = false)
      ↔ ¬ patterns.all (fun pattern => pattern.toList.all isWhitespace) = true := by
    rw [List.all_eq_true, not_forall₂]
    simp [isBlank]
  rw [hall, checkWatches]
  cases svc.autoRestart <;> cases patterns.all (fun pattern => pattern.toList.all isWhitespace)
    <;> simp

/-- What stands in `prepared` for a service stands there for the service without
    `auto_restart`, if the check of its patterns passes. -/
theorem carries_autoRestart {envFilePath : String} {prepared : PreparedService}
    (h : Carries setting.tools setting.files args name { svc with autoRestart := false } prepared
      envFilePath)
    (hwatches : checkWatches name svc prepared.watchPatterns = .ok ()) :
    Carries setting.tools setting.files args name svc
      { prepared with autoRestart := svc.autoRestart } envFilePath :=
  ⟨h.paths, h.env, h.readiness, h.logPath, h.cmd, h.watch, h.ignore, hwatches, h.fingerprint,
    h.hash, h.name_eq, h.unitName, h.port, h.listenPort, h.scheme, h.url, h.captureApi,
    h.captureApiBodyLimit, h.captureApiIgnore, h.deps, h.extraFiles, rfl⟩

/-- **WHICH SERVICES PASS THE CHECK OF THEIR PATTERNS.** -/
theorem watchesPass_iff : WatchesPass setting args name svc ↔ WatchesSomething setting args name svc := by
  constructor
  · rintro h hauto ⟨prepared, hprepared⟩
    cases hsvc : prepareService setting.tools setting.files args name svc with
    | error err =>
        obtain ⟨err', herr'⟩ := h err hsvc
        rw [hprepared] at herr'
        exact nomatch herr'
    | ok prepared' =>
        obtain ⟨envFilePath, hcarries⟩ := prepareService_ok.mp hsvc
        obtain ⟨text, htext, hblank⟩ := checkWatches_ok.mp hcarries.watches hauto
        obtain ⟨pattern, hpattern, hrender⟩ := (mem_renderPatterns hcarries.watch).mp htext
        exact ⟨pattern, hpattern, text, hrender, hblank⟩
  · intro h err herr
    cases hoff : prepareService setting.tools setting.files args name
        { svc with autoRestart := false } with
    | error err' => exact ⟨err', rfl⟩
    | ok prepared =>
        obtain ⟨envFilePath, hcarries⟩ := prepareService_ok.mp hoff
        have hwatches : checkWatches name svc prepared.watchPatterns = .ok () := by
          refine checkWatches_ok.mpr fun hauto => ?_
          obtain ⟨pattern, hpattern, text, hrender, hblank⟩ := h hauto ⟨prepared, hoff⟩
          exact ⟨text, (mem_renderPatterns hcarries.watch).mpr ⟨pattern, hpattern, hrender⟩, hblank⟩
        rw [prepareService_ok.mpr ⟨envFilePath, carries_autoRestart hcarries hwatches⟩] at herr
        exact nomatch herr

end Watches

-- ── readiness ─────────────────────────────────────────────────────────────────

section Readiness

variable {outside : Outside} {port : Option Port} {spec : ReadinessSpec} {ctx : ReadinessContext}

/-- Ports connect, no file is there, no unit is known, and the rest fails. -/
def quiet : Observation where
  connects := fun _ => true
  httpGet := fun _ => .error "connection refused"
  file := fun _ => .missing
  runCommand := fun _ _ _ => .error "not found"
  unitStatus := fun _ => .ok none

/-- The outside always looks the same, and a tick takes a millisecond. -/
def constantly (obs : Observation) : Timeline := ⟨fun _ => obs, id⟩

theorem shows_quiet {obs : Observation} (hhttp : obs.httpGet = quiet.httpGet)
    (hcommand : obs.runCommand = quiet.runCommand) : outside.Shows obs := by
  refine ⟨fun url status h => ?_, fun command cwd env h => ?_⟩
  · rw [hhttp] at h
    exact nomatch h
  · rw [hcommand] at h
    exact nomatch h

theorem canBecomeReady_of {obs : Observation} {fuel k : Nat} (hshows : outside.Shows obs)
    (hwait : waitForReady outside.engine spec ctx (constantly obs) fuel = some (.ok k)) :
    CanBecomeReady outside spec ctx :=
  ⟨constantly obs, fun _ => hshows, fun bound => ⟨bound, fun _ h => h⟩, fuel, k, hwait⟩

/-- A process that no manager knows has not failed. -/
theorem noFailure {obs : Observation} (h : obs.unitStatus = quiet.unitStatus) :
    readinessProcessFailure ctx obs = .ok none := by
  rw [readinessProcessFailure, h]
  split
  · rfl
  · split <;> rfl

/-- One turn of the loop is enough. -/
theorem waitLoop_first {obs : Observation} {deadline : Nat} (hunit : obs.unitStatus = quiet.unitStatus)
    (hready : checkReadyOnce outside.engine spec ctx obs = .ok true) :
    waitLoop outside.engine spec ctx (constantly obs) deadline 1 1 none = some (.ok 2) := by
  simp only [waitLoop, constantly, noFailure hunit, hready]

/-- What a wait that returned `Ok` has seen. -/
theorem answerable_of_ready (hctx : Awaited port ctx) (h : CanBecomeReady outside spec ctx) :
    Answerable outside port spec.timeout spec.kind := by
  obtain ⟨tl, hshows, -, fuel, k, hwait⟩ := h
  have hready : spec.kind ≠ .exit → (∀ duration, spec.kind ≠ .delay duration) →
      checkReadyOnce outside.engine spec ctx (tl.obs k) = .ok true :=
    fun hexit hdelay => waitForReady_ok hexit hdelay hwait
  cases hkind : spec.kind with
  | exit | none => trivial
  | delay duration =>
      simp only [waitForReady, hkind, waitForDelay] at hwait
      split at hwait
      · cases Option.some.inj hwait
      · next hlate => exact Nat.le_of_not_lt hlate
  | tcp =>
      rw [hkind] at hready
      have hchecked := hready (by simp) (by simp)
      simp only [checkReadyOnce, hkind, hctx.port] at hchecked
      cases port with
      | none => cases hchecked
      | some p => rfl
  | http path expectMin expectMax =>
      rw [hkind] at hready
      have hchecked := hready (by simp) (by simp)
      simp only [checkReadyOnce, hkind, hctx.port] at hchecked
      cases port with
      | none => cases hchecked
      | some p =>
          simp only [httpReady] at hchecked
          split at hchecked
          · cases hchecked
          · next status hget =>
              exact ⟨p, status, rfl, Except.ok.inj hchecked, (hshows k).http _ status hget⟩
  | logRegex pattern =>
      rw [hkind] at hready
      have hchecked := hready (by simp) (by simp)
      simp only [checkReadyOnce, hkind, logRegexReady] at hchecked
      split at hchecked
      · next content _ =>
          split at hchecked
          · cases hchecked
          · next isMatch hcompile => exact ⟨isMatch, content, hcompile, Except.ok.inj hchecked⟩
      · cases hchecked
  | cmd command =>
      rw [hkind] at hready
      have hchecked := hready (by simp) (by simp)
      simp only [checkReadyOnce, hkind, cmdReady] at hchecked
      split at hchecked
      · cases hchecked
      · next success hrun =>
          rw [Except.ok.inj hchecked] at hrun
          exact (hshows k).command _ _ _ hrun

/-- An outside that gives the check what it needs. -/
theorem ready_of_answerable (hctx : Awaited port ctx)
    (h : Answerable outside port spec.timeout spec.kind) : CanBecomeReady outside spec ctx := by
  -- the kinds that share a loop
  have hloop : ∀ {obs : Observation}, outside.Shows obs → obs.unitStatus = quiet.unitStatus →
      checkReadyOnce outside.engine spec ctx obs = .ok true →
      (waitForReady outside.engine spec ctx (constantly obs) 1
        = waitLoop outside.engine spec ctx (constantly obs)
            ((constantly obs).clock 0 + spec.timeout) 1 1 none) →
      CanBecomeReady outside spec ctx := by
    intro obs hshows hunit hready hwait
    exact canBecomeReady_of hshows (hwait.trans (waitLoop_first hunit hready))
  cases hkind : spec.kind with
  | none =>
      refine hloop (shows_quiet rfl rfl) rfl ?_ ?_
      · simp only [checkReadyOnce, hkind]
      · simp only [waitForReady, hkind]
  | tcp =>
      rw [hkind] at h
      obtain ⟨p, rfl⟩ := Option.isSome_iff_exists.mp h
      refine hloop (shows_quiet rfl rfl) rfl ?_ ?_
      · simp only [checkReadyOnce, hkind, hctx.port, tcpReady, quiet]
      · simp only [waitForReady, hkind]
  | http path expectMin expectMax =>
      rw [hkind] at h
      obtain ⟨p, status, rfl, hrange, hanswers⟩ := h
      let url := s!"http://127.0.0.1:{p}{path}"
      have hshows : outside.Shows
          { quiet with httpGet := fun u => if u = url then .ok status else .error "" } := by
        refine ⟨fun u st hget => ?_, fun _ _ _ hrun => (by cases hrun)⟩
        dsimp only at hget
        split at hget
        · next hu =>
            obtain rfl := Except.ok.inj hget
            rw [hu]
            exact hanswers
        · cases hget
      refine hloop hshows rfl ?_ ?_
      · simp only [checkReadyOnce, hkind, hctx.port, httpReady, url, if_true, hrange]
      · simp only [waitForReady, hkind]
  | cmd command =>
      rw [hkind] at h
      have hshows : outside.Shows { quiet with
          runCommand := fun c _ _ => if c = command then .ok true else .error "" } := by
        refine ⟨fun _ _ hget => (by cases hget), fun c cwd env hrun => ?_⟩
        dsimp only at hrun
        split at hrun
        · next hc =>
            rw [hc]
            exact h
        · cases hrun
      refine hloop hshows rfl ?_ ?_
      · simp only [checkReadyOnce, hkind, cmdReady, if_true]
      · simp only [waitForReady, hkind]
  | delay duration =>
      rw [hkind] at h
      refine @canBecomeReady_of _ _ _ quiet 0 0 (shows_quiet rfl rfl) ?_
      simp only [waitForReady, hkind, waitForDelay]
      rw [if_neg (Nat.not_lt.mpr h)]
  | logRegex pattern =>
      rw [hkind] at h
      obtain ⟨isMatch, content, hcompile, hmatch⟩ := h
      refine @canBecomeReady_of _ _ _ { quiet with file := fun _ => .text content } 1 2
        (shows_quiet rfl rfl) ?_
      simp only [waitForReady, hkind, waitForLogRegex, hcompile, logRegexLoop, logFound, constantly,
        hmatch, if_true]
  | exit =>
      obtain ⟨unitName, hunit⟩ := Option.isSome_iff_exists.mp hctx.unit
      refine @canBecomeReady_of _ _ _
        { quiet with unitStatus := fun _ => .ok (some ⟨"inactive", "dead", some "success"⟩) } 1 1
        (shows_quiet rfl rfl) ?_
      simp [waitForReady, hkind, waitForExitSuccess, exitLoop, exitReadyOnce, constantly,
        hctx.systemd, hunit]

theorem canBecomeReady_iff (hctx : Awaited port ctx) :
    CanBecomeReady outside spec ctx ↔ Answerable outside port spec.timeout spec.kind :=
  ⟨answerable_of_ready hctx, ready_of_answerable hctx⟩

end Readiness

/-- A readiness table that validation accepts gives a spec, with a port or without. -/
theorem readinessSpec_of_valid {stackName name : String} {svc : ServiceConfig}
    (h : validateServiceReadiness stackName name svc = .ok ()) (hasPort : Bool) :
    ∃ spec, readinessSpec svc hasPort = .ok spec := by
  have hkind : ∃ kind, readinessKind svc hasPort = .ok kind := by
    rw [validateServiceReadiness] at h
    cases hvalid : readinessKind svc (hasServicePort svc) with
    | error err =>
        rw [hvalid] at h
        exact nomatch h
    | ok kind =>
        rw [readinessKind] at hvalid ⊢
        cases hreadiness : svc.readiness with
        | none => exact ⟨_, rfl⟩
        | some readiness =>
            rw [hreadiness] at hvalid
            exact ⟨kind, hvalid⟩
  obtain ⟨kind, hkind⟩ := hkind
  exact ⟨_, by rw [readinessSpec, hkind]⟩

section Service

variable {setting : Setting} {args : PrepareArgs} {stackName name : String} {svc : ServiceConfig}

theorem readinessPasses_iff (h : validateServiceReadiness stackName name svc = .ok ()) :
    ReadinessPasses setting args name svc ↔ ReadinessAnswerable setting args name svc := by
  constructor
  · rintro ⟨spec, hspec, hready⟩ spec' hspec'
    rw [hspec] at hspec'
    obtain rfl := Except.ok.inj hspec'
    have hctx : Awaited (args.listenPort name)
        ⟨args.listenPort name, "http", "", "", ∅, some "", true⟩ := ⟨rfl, rfl, rfl⟩
    exact (canBecomeReady_iff hctx).mp (hready _ hctx)
  · intro hanswerable
    obtain ⟨spec, hspec⟩ := readinessSpec_of_valid h (args.listenPort name).isSome
    exact ⟨spec, hspec, fun ctx hctx => (canBecomeReady_iff hctx).mpr (hanswerable spec hspec)⟩

theorem serviceLaunchable_iff {captureAllowed : Bool} {globalTasks : Option (BTreeMap TaskConfig)}
    (h : validateServiceFields stackName name svc captureAllowed globalTasks = .ok ()) :
    ServiceLaunchable setting args name svc ↔ ServiceComplete setting args name svc := by
  simp only [validateServiceFields, andThen_ok] at h
  exact and_congr watchesPass_iff (readinessPasses_iff h.2.2.1)

end Service

section Config

variable {setting : Setting} {config : ConfigFile}

/-- The services of an accepted stack can be sorted. -/
theorem stackPlan_of_accepted (h : acceptConfig config = .ok ()) {stackName : String}
    {stack : StackConfig} (hstack : config.stackConfigs[stackName]? = some stack) :
    ∃ plan, stackPlan config stackName = .ok plan := by
  have hsorts := stack_accepted h hstack
  simp only [validateStack, andThen_ok] at hsorts
  rw [stackPlan, hstack]
  dsimp only
  split
  · next err hsort =>
      rw [hsort] at hsorts
      cases hsorts.2
  · exact ⟨_, rfl⟩

theorem stackLaunchable_iff (h : acceptConfig config = .ok ()) {stackName : String}
    {stack : StackConfig} (hstack : config.stackConfigs[stackName]? = some stack) :
    StackLaunchable setting config stackName stack ↔ StackComplete setting stackName stack := by
  have hservices : ∀ name svc, stack.services[name]? = some svc →
      (ServiceLaunchable setting (setting.args (some stackName) name) name svc
        ↔ ServiceComplete setting (setting.args (some stackName) name) name svc) := by
    intro name svc hsvc
    have hvalid := service_accepted h hstack hsvc
    simp only [validateStackService, andThen_ok] at hvalid
    exact serviceLaunchable_iff hvalid.2.1
  constructor
  · rintro ⟨-, hids, hlaunchable⟩
    exact ⟨generateRunId_valid.mp (hids fun _ => 0),
      fun name svc hsvc => (hservices name svc hsvc).mp (hlaunchable name svc hsvc)⟩
  · rintro ⟨hname, hcomplete⟩
    exact ⟨stackPlan_of_accepted h hstack, fun _ => generateRunId_valid.mpr hname,
      fun name svc hsvc => (hservices name svc hsvc).mpr (hcomplete name svc hsvc)⟩

/-- **WHICH ACCEPTED CONFIGURATIONS CAN BE LAUNCHED.** -/
theorem launchable_iff (setting : Setting) (h : acceptConfig config = .ok ()) :
    Launchable setting config ↔ Complete setting config := by
  have hstacks : ∀ stackName stack, config.stackConfigs[stackName]? = some stack →
      (StackLaunchable setting config stackName stack ↔ StackComplete setting stackName stack) :=
    fun _ _ hstack => stackLaunchable_iff h hstack
  have hglobals : ∀ globals, config.globals = some globals → ∀ name svc,
      globals[name]? = some svc →
      (ServiceLaunchable setting (setting.args none name) name svc
        ↔ ServiceComplete setting (setting.args none name) name svc) := by
    intro globals hglobals name svc hsvc
    have hvalid := global_accepted h hglobals hsvc
    simp only [validateGlobal, andThen_ok] at hvalid
    exact serviceLaunchable_iff hvalid.2.1
  constructor
  · rintro ⟨hlaunch, hlaunchGlobals⟩
    exact ⟨fun stackName stack hstack => (hstacks _ _ hstack).mp (hlaunch _ _ hstack),
      fun globals hg name svc hsvc =>
        (hglobals globals hg name svc hsvc).mp (hlaunchGlobals globals hg name svc hsvc)⟩
  · rintro ⟨hcomplete, hcompleteGlobals⟩
    exact ⟨fun stackName stack hstack => (hstacks _ _ hstack).mpr (hcomplete _ _ hstack),
      fun globals hg name svc hsvc =>
        (hglobals globals hg name svc hsvc).mpr (hcompleteGlobals globals hg name svc hsvc)⟩

end Config

-- ── a configuration that can be launched, and four that cannot ────────────────

/-- Templates without markup, env files without entries. -/
def plainTools : Tools where
  render := fun template _ => .ok template
  dotenv := fun _ => .ok []
  encode := fun _ => []
  watchHash := fun _ _ _ _ _ _ => .ok ""
  home := none
  vars := fun _ => none
  dataDir := .ok "/data"
  projectHash := fun _ => "0"

/-- A launch in an empty directory, with the ports of the services in `ports`. -/
def plainSetting (ports : BTreeMap (Option Port)) : Setting where
  outside := ⟨⟨fun _ => .ok fun _ => true⟩, fun _ _ => true, fun _ => true⟩
  tools := plainTools
  files := fun _ => none
  args := fun stackName _ =>
    { scope := .run "dev-0" (stackName.getD ""), projectDir := "/p", configDir := "/p"
      portMap := ports, listenPortMap := ports, serviceSchemes := ∅, baseEnv := ∅
      globalEnv := ∅, globalEnvFile := none }

def webOnPort : BTreeMap (Option Port) := (∅ : BTreeMap (Option Port)).insert "web" (some 3000)

def webWithoutPort : BTreeMap (Option Port) := (∅ : BTreeMap (Option Port)).insert "web" none

/-- A configuration of one stack. -/
def oneStack (stackName : String) (services : BTreeMap ServiceConfig) : ConfigFile where
  version := 1
  stackConfigs := (∅ : BTreeMap StackConfig).insert stackName ⟨services⟩
  defaultStack := none
  globals := none
  tasks := none
  env := ∅
  envFile := none

/-- A stack `dev` of one service. -/
def webConfig (svc : ServiceConfig) : ConfigFile :=
  oneStack "dev" ((∅ : BTreeMap ServiceConfig).insert "web" svc)

def plainWeb : ServiceConfig := .ofCmd "serve" []

/-- What holds of the one service holds of the configuration. -/
theorem complete_webConfig {setting : Setting} {svc : ServiceConfig}
    (h : ServiceComplete setting (setting.args (some "dev") "web") "web" svc) :
    Complete setting (webConfig svc) := by
  refine ⟨fun stackName stack hstack => ?_, fun _ hglobals => (nomatch hglobals)⟩
  simp only [webConfig, oneStack, Std.ExtTreeMap.getElem?_insert, Std.ExtTreeMap.getElem?_empty] at hstack
  split at hstack
  · next hname =>
      obtain rfl := Std.LawfulEqCmp.eq_of_compare hname
      obtain rfl := Option.some.inj hstack
      refine ⟨by decide, fun name svc' hsvc => ?_⟩
      simp only [Std.ExtTreeMap.getElem?_insert, Std.ExtTreeMap.getElem?_empty] at hsvc
      split at hsvc
      · next hname' =>
          obtain rfl := Std.LawfulEqCmp.eq_of_compare hname'
          obtain rfl := Option.some.inj hsvc
          exact h
      · exact nomatch hsvc
  · exact nomatch hstack

theorem service_of_launchable {setting : Setting} {svc : ServiceConfig}
    (h : Launchable setting (webConfig svc)) :
    ServiceLaunchable setting (setting.args (some "dev") "web") "web" svc := by
  refine (h.1 "dev" _ Std.ExtTreeMap.getElem?_insert_self).2.2 "web" svc ?_
  exact Std.ExtTreeMap.getElem?_insert_self

theorem launchable_plainWeb : Launchable (plainSetting webOnPort) (webConfig plainWeb) := by
  refine (launchable_iff _ (by decide +kernel)).mpr (complete_webConfig ⟨?_, ?_⟩)
  · intro hauto
    exact nomatch hauto
  · intro spec hspec
    have hport : ((plainSetting webOnPort).args (some "dev") "web").listenPort "web" = some 3000 := by
      decide +kernel
    rw [hport] at hspec ⊢
    obtain rfl := Except.ok.inj hspec
    rfl

/-- The service restarts by itself, but watches blanks only. -/
def blankWeb : ServiceConfig := { plainWeb with autoRestart := true, watch := [" "] }

theorem prepared_blankWeb : ∃ prepared, prepareService plainTools (fun _ => none)
    ((plainSetting webOnPort).args (some "dev") "web") "web"
    { blankWeb with autoRestart := false } = .ok prepared := by
  have hok : (prepareService plainTools (fun _ => none)
      ((plainSetting webOnPort).args (some "dev") "web") "web"
      { blankWeb with autoRestart := false }).isOk = true := by decide +kernel
  cases hprepared : prepareService plainTools (fun _ => none)
      ((plainSetting webOnPort).args (some "dev") "web") "web"
      { blankWeb with autoRestart := false } with
  | error err =>
      rw [hprepared] at hok
      exact nomatch hok
  | ok prepared => exact ⟨prepared, rfl⟩

def noReadiness : ReadinessConfig := ⟨none, none, none, none, none, none, none⟩

/-- The service is to be waited for a minute, with the timeout of half a minute. -/
def slowWeb : ServiceConfig :=
  { plainWeb with readiness := some { noReadiness with delayMs := some 60000 } }

/-- The service is to be connected to, but has no port. -/
def portlessWeb : ServiceConfig :=
  { plainWeb with port := some (.none "none"), readiness := some { noReadiness with tcp := some () } }

/-- Validation accepts a stack whose run ids are no path components, blank watch patterns,
    a delay longer than the timeout, and a connection check without a port. -/
theorem unlaunchable :
    (acceptConfig (oneStack "my stack" ∅) = .ok ()
        ∧ ¬ Launchable (plainSetting ∅) (oneStack "my stack" ∅))
      ∧ (acceptConfig (webConfig blankWeb) = .ok ()
        ∧ ¬ Launchable (plainSetting webOnPort) (webConfig blankWeb))
      ∧ (acceptConfig (webConfig slowWeb) = .ok ()
        ∧ ¬ Launchable (plainSetting webOnPort) (webConfig slowWeb))
      ∧ (acceptConfig (webConfig portlessWeb) = .ok ()
        ∧ ¬ Launchable (plainSetting webWithoutPort) (webConfig portlessWeb)) := by
  refine ⟨⟨by decide +kernel, fun h => ?_⟩, ⟨by decide +kernel, fun h => ?_⟩,
    ⟨by decide +kernel, fun h => ?_⟩, ⟨by decide +kernel, fun h => ?_⟩⟩
  · have hvalid := (h.1 "my stack" _ Std.ExtTreeMap.getElem?_insert_self).2.1 fun _ => 0
    have hchars := generateRunId_valid.mp hvalid
    exact absurd hchars (by decide)
  · obtain ⟨pattern, hpattern, text, hrender, hblank⟩ :=
      watchesPass_iff.mp (service_of_launchable h).1 rfl prepared_blankWeb
    obtain rfl := List.mem_singleton.mp hpattern
    obtain rfl := Except.ok.inj hrender
    exact absurd hblank (by decide)
  · have hready := (@readinessPasses_iff _ _ "dev" _ _ rfl).mp (service_of_launchable h).2
    have hdelay : 60000 ≤ 30000 := hready ⟨.delay 60000, 30000⟩ rfl
    exact absurd hdelay (by decide)
  · have hready := (@readinessPasses_iff _ _ "dev" _ _ rfl).mp (service_of_launchable h).2
    have hport : ((plainSetting webWithoutPort).args (some "dev") "web").listenPort "web" = none := by
      decide +kernel
    have hanswerable := hready ⟨.tcp, 30000⟩ rfl
    rw [hport] at hanswerable
    exact nomatch hanswerable

end DevstackLaunchable
