import Devstack.Exclusivity
import Devstack.Resources

/-! # Validation — what a configuration has to satisfy

    The methods of `ServiceConfig` in `src/config/model.rs` and the checks of
    `src/config/validate.rs`, in the order they run: the first that fails ends the
    validation with its error. -/

namespace DevstackValidate

open DevstackModel DevstackConfig DevstackExclusivity DevstackResources

-- ── config/model.rs ───────────────────────────────────────────────────────────

/-- `ServiceConfig::port_env`. -/
def portEnv (service : ServiceConfig) : String := service.portEnv.getD "PORT"

/-- `ServiceConfig::capture_api_body_limit`. -/
def captureApiBodyLimit (service : ServiceConfig) : Nat :=
  service.captureApiBodyLimit.getD (256 * 1024)

/-- `DEFAULT_CAPTURE_API_IGNORE_PATHS`. -/
def defaultCaptureApiIgnorePaths : List String :=
  ["/health", "/healthz", "/api/health", "/api/healthz", "/ready", "/readyz", "/live", "/livez",
    "/ping", "/metrics"]

/-- A pattern is added unless it is there. -/
def addPattern (paths : List String) (pattern : String) : List String :=
  if pattern ∈ paths then paths else paths ++ [pattern]

/-- `ServiceConfig::capture_api_ignore_paths`. -/
def captureApiIgnorePaths (service : ServiceConfig) : List String :=
  service.captureApiIgnore.foldl addPattern defaultCaptureApiIgnorePaths

/-- `ServiceConfig::capture_api_requested`. -/
def captureApiRequested (service : ServiceConfig) : Bool := service.captureApi.getD true

/-- `ServiceConfig::capture_api_explicitly_enabled`. -/
def captureApiExplicitlyEnabled (service : ServiceConfig) : Bool :=
  decide (service.captureApi = some true)

/-- `ServiceConfig::has_service_port`. -/
def hasServicePort (service : ServiceConfig) : Bool :=
  match service.port with
  | some port => !port.isNone
  | none => true

/-- `normalize_expect_status`. -/
def normalizeExpectStatus : Option (List UInt16) → Except String (UInt16 × UInt16)
  | some [min, max] => if min > max then .error "expect_status min > max" else .ok (min, max)
  | some _ => .error "expect_status must have two values"
  | none => .ok (200, 399)

/-- The kind of the `http` table, if there is one. -/
def httpKind (readiness : ReadinessConfig) : Except String (List ReadinessKind) :=
  match readiness.http with
  | none => .ok []
  | some http =>
      match normalizeExpectStatus http.expectStatus with
      | .error err => .error err
      | .ok (min, max) => .ok [.http http.path min max]

/-- The names of the checks a `readiness` table gives. -/
def foundChecks (readiness : ReadinessConfig) : List String :=
  readiness.tcp.toList.map (fun _ => "tcp")
    ++ readiness.http.toList.map (fun _ => "http")
    ++ readiness.logRegex.toList.map (fun _ => "log_regex")
    ++ readiness.cmd.toList.map (fun _ => "cmd")
    ++ readiness.delayMs.toList.map (fun _ => "delay_ms")
    ++ readiness.exit.toList.map (fun _ => "exit")

/-- The error for a `readiness` table with no check, or with several. -/
def notOneCheck : List String → String
  | [] => "readiness must specify exactly one check (found none)"
  | found =>
      "readiness must specify exactly one check (found: " ++ String.intercalate ", " found ++ ")"

/-- `ServiceConfig::readiness_kind`. -/
def readinessKind (service : ServiceConfig) (hasPort : Bool) : Except String ReadinessKind :=
  match service.readiness with
  | none => .ok (if hasPort then .tcp else .none)
  | some readiness =>
      match httpKind readiness with
      | .error err => .error err
      | .ok http =>
          let chosen := readiness.tcp.toList.map (fun _ => ReadinessKind.tcp)
            ++ http
            ++ readiness.logRegex.toList.map ReadinessKind.logRegex
            ++ readiness.cmd.toList.map ReadinessKind.cmd
            ++ readiness.delayMs.toList.map ReadinessKind.delay
            ++ readiness.exit.toList.map (fun _ => ReadinessKind.exit)
          match chosen with
          | [kind] => .ok kind
          | _ => .error (notOneCheck (foundChecks readiness))

/-- `ServiceConfig::readiness_spec`. -/
def readinessSpec (service : ServiceConfig) (hasPort : Bool) : Except String ReadinessSpec :=
  match readinessKind service hasPort with
  | .error err => .error err
  | .ok kind => .ok ⟨kind, (service.readiness.bind (·.timeoutMs)).getD 30000⟩

-- ── config/validate.rs ────────────────────────────────────────────────────────

/-- A loop of checks that ends with the first error. -/
def checkEach {α : Type} (check : α → Except String Unit) : List α → Except String Unit
  | [] => .ok ()
  | x :: xs =>
      match check x with
      | .error err => .error err
      | .ok _ => checkEach check xs

/-- Two checks, one after the other. -/
def andThen (first second : Except String Unit) : Except String Unit :=
  match first with
  | .error err => .error err
  | .ok _ => second

/-- `map_err` with a text put before the error. -/
def named (what : String) (check : Except String Unit) : Except String Unit :=
  check.mapError (fun err => s!"{what}: {err}")

/-- `validate_service_port`. -/
def validateServicePort (stack service : String) (svc : ServiceConfig) : Except String Unit :=
  match svc.port with
  | some (.fixed port) =>
      if port < 1024 then
        .error s!"service {service} in stack {stack}: port must be in range 1024-65535, got {port}"
      else .ok ()
  | some (.none value) =>
      if value ≠ "none" then
        .error (s!"service {service} in stack {stack}: invalid port value \"{value}\", "
          ++ "must be a number or \"none\"")
      else .ok ()
  | none => .ok ()

/-- `validate_service_capture`. -/
def validateServiceCapture (stack service : String) (svc : ServiceConfig) (allowed : Bool) :
    Except String Unit :=
  if !captureApiRequested svc then .ok ()
  else
    let refusal :=
      if !allowed then some "capture_api is only supported for stack services"
      else if !hasServicePort svc then some "capture_api requires a service port"
      else if schemeOf svc ≠ "http" then some "capture_api only supports http services"
      else none
    match refusal with
    | some reason =>
        if captureApiExplicitlyEnabled svc then
          .error s!"service {service} in stack {stack}: {reason}"
        else .ok ()
    | none => .ok ()

/-- `validate_service_readiness`. -/
def validateServiceReadiness (stack service : String) (svc : ServiceConfig) : Except String Unit :=
  match readinessKind svc (hasServicePort svc) with
  | .error err => .error s!"service {service} in stack {stack}: readiness error: {err}"
  | .ok _ => .ok ()

/-- `validate_service_tasks`. -/
def validateServiceTasks (stack service : String) (svc : ServiceConfig) : Except String Unit :=
  match svc.tasks with
  | none => .ok ()
  | some tasks =>
      checkEach (fun taskName =>
        named s!"invalid task name on service {service} in stack {stack}"
          (validateNameForPathComponent "task" taskName)) tasks.keys

/-- `has_task`. -/
def hasTask (name : String) (svc : ServiceConfig) (globalTasks : Option (BTreeMap TaskConfig)) :
    Bool :=
  svc.tasks.any (·.contains name) || globalTasks.any (·.contains name)

/-- The loop of `validate_service_init_tasks` and `validate_service_post_init_tasks`. -/
def validateTaskList (kind stack service : String) (svc : ServiceConfig)
    (globalTasks : Option (BTreeMap TaskConfig)) (names : Option (List String)) :
    Except String Unit :=
  checkEach (fun name =>
    if hasTask name svc globalTasks then .ok ()
    else .error s!"service {service} in stack {stack}: unknown {kind} task '{name}'")
    (names.getD [])

/-- `validate_service_init_tasks`. -/
def validateServiceInitTasks (stack service : String) (svc : ServiceConfig)
    (globalTasks : Option (BTreeMap TaskConfig)) : Except String Unit :=
  validateTaskList "init" stack service svc globalTasks svc.init

/-- `validate_service_post_init_tasks`. -/
def validateServicePostInitTasks (stack service : String) (svc : ServiceConfig)
    (globalTasks : Option (BTreeMap TaskConfig)) : Except String Unit :=
  validateTaskList "post_init" stack service svc globalTasks svc.postInit

/-- `validate_service_auto_restart`. -/
def validateServiceAutoRestart (stack service : String) (svc : ServiceConfig) :
    Except String Unit :=
  if svc.autoRestart && svc.watch.isEmpty then
    .error s!"service {service} in stack {stack}: auto_restart requires watch patterns"
  else .ok ()

/-- The checks that services of stacks and globals have in common. -/
def validateServiceFields (stack service : String) (svc : ServiceConfig) (captureAllowed : Bool)
    (globalTasks : Option (BTreeMap TaskConfig)) : Except String Unit :=
  andThen (validateServicePort stack service svc)
    (andThen (validateServiceCapture stack service svc captureAllowed)
      (andThen (validateServiceReadiness stack service svc)
        (andThen (validateServiceTasks stack service svc)
          (andThen (validateServiceInitTasks stack service svc globalTasks)
            (andThen (validateServicePostInitTasks stack service svc globalTasks)
              (validateServiceAutoRestart stack service svc))))))

/-- The body of the loop over the services of a stack. -/
def validateStackService (stack : String) (services : BTreeMap ServiceConfig)
    (globalTasks : Option (BTreeMap TaskConfig)) (entry : String × ServiceConfig) :
    Except String Unit :=
  andThen (named s!"invalid service name in stack '{stack}'"
      (validateNameForPathComponent "service" entry.1))
    (andThen (validateServiceFields stack entry.1 entry.2 true globalTasks)
      (checkEach (fun dep =>
        if services.contains dep then .ok ()
        else .error (s!"service '{entry.1}' in stack '{stack}' depends on "
          ++ s!"unknown service '{dep}'")) entry.2.deps))

/-- The body of the loop over the stacks. -/
def validateStack (globalTasks : Option (BTreeMap TaskConfig)) (entry : String × StackConfig) :
    Except String Unit :=
  andThen (checkEach (validateStackService entry.1 entry.2.services globalTasks)
      entry.2.services.toList)
    (match topoSort entry.2.services with
    | .error err => .error s!"stack '{entry.1}': {err}"
    | .ok _ => .ok ())

/-- The body of the loop over the globals. -/
def validateGlobal (globalTasks : Option (BTreeMap TaskConfig)) (entry : String × ServiceConfig) :
    Except String Unit :=
  andThen (named "invalid global service name" (validateNameForPathComponent "service" entry.1))
    (andThen (validateServiceFields "globals" entry.1 entry.2 false globalTasks)
      (if entry.2.deps ≠ [] then .error s!"global service '{entry.1}' cannot have deps"
      else .ok ()))

/-- The check of `default_stack`. -/
def validateDefaultStack (config : ConfigFile) : Except String Unit :=
  match config.defaultStack with
  | some name =>
      if config.stackConfigs.contains name then .ok ()
      else .error s!"default_stack '{name}' not found in stacks"
  | none => .ok ()

/-- `ConfigFile::validate`. -/
def validate (config : ConfigFile) : Except String Unit :=
  andThen (validateDefaultStack config)
    (andThen (checkEach (validateStack config.tasks) config.stackConfigs.toList)
      (andThen (checkEach (fun name =>
          named "invalid task name" (validateNameForPathComponent "task" name))
          ((config.tasks.map (·.keys)).getD []))
        (checkEach (validateGlobal config.tasks) ((config.globals.map (·.toList)).getD []))))

/-- The end of `ConfigFile::load_from_path`, once the file is parsed. -/
def acceptConfig (config : ConfigFile) : Except String Unit :=
  if config.version ≠ 1 then .error s!"unsupported config version {config.version}"
  else validate config

/-! ## What an accepted configuration satisfies -/

@[simp] theorem andThen_ok {first second : Except String Unit} :
    andThen first second = .ok () ↔ first = .ok () ∧ second = .ok () := by
  cases first with
  | error err => simp [andThen]
  | ok u => simp [andThen]

@[simp] theorem named_ok {what : String} {check : Except String Unit} :
    named what check = .ok () ↔ check = .ok () := by
  cases check with
  | error err => simp [named, Except.mapError]
  | ok u => simp [named, Except.mapError]

/-- A loop of checks succeeds if every check does. -/
theorem checkEach_ok {α : Type} {check : α → Except String Unit} {xs : List α} :
    checkEach check xs = .ok () ↔ ∀ x ∈ xs, check x = .ok () := by
  induction xs with
  | nil => simp [checkEach]
  | cons x xs ih =>
      rw [checkEach]
      cases hx : check x with
      | error err => simp [hx]
      | ok u => simp [hx, ih]

section Accepted

variable {config : ConfigFile}

theorem validate_of_accepted (h : acceptConfig config = .ok ()) : validate config = .ok () := by
  rw [acceptConfig] at h
  split at h
  · exact nomatch h
  · exact h

theorem stack_valid (hvalid : validate config = .ok ()) {stackName : String}
    {stack : StackConfig} (hstack : config.stackConfigs[stackName]? = some stack) :
    validateStack config.tasks (stackName, stack) = .ok () := by
  simp only [validate, andThen_ok, checkEach_ok] at hvalid
  exact hvalid.2.1 _ (Std.ExtTreeMap.mem_toList_iff_getElem?_eq_some.mpr hstack)

theorem service_valid (hvalid : validate config = .ok ()) {stackName : String}
    {stack : StackConfig} (hstack : config.stackConfigs[stackName]? = some stack) {name : String}
    {svc : ServiceConfig} (hsvc : stack.services[name]? = some svc) :
    validateStackService stackName stack.services config.tasks (name, svc) = .ok () := by
  have hchecked := stack_valid hvalid hstack
  simp only [validateStack, andThen_ok, checkEach_ok] at hchecked
  exact hchecked.1 _ (Std.ExtTreeMap.mem_toList_iff_getElem?_eq_some.mpr hsvc)

theorem stack_accepted (h : acceptConfig config = .ok ()) {stackName : String}
    {stack : StackConfig} (hstack : config.stackConfigs[stackName]? = some stack) :
    validateStack config.tasks (stackName, stack) = .ok () :=
  stack_valid (validate_of_accepted h) hstack

theorem service_accepted (h : acceptConfig config = .ok ()) {stackName : String}
    {stack : StackConfig} (hstack : config.stackConfigs[stackName]? = some stack) {name : String}
    {svc : ServiceConfig} (hsvc : stack.services[name]? = some svc) :
    validateStackService stackName stack.services config.tasks (name, svc) = .ok () :=
  service_valid (validate_of_accepted h) hstack hsvc

theorem global_accepted (h : acceptConfig config = .ok ()) {globals : BTreeMap ServiceConfig}
    (hglobals : config.globals = some globals) {name : String} {svc : ServiceConfig}
    (hsvc : globals[name]? = some svc) : validateGlobal config.tasks (name, svc) = .ok () := by
  have hvalid := validate_of_accepted h
  simp only [validate, andThen_ok, checkEach_ok, hglobals] at hvalid
  exact hvalid.2.2.2 _ (Std.ExtTreeMap.mem_toList_iff_getElem?_eq_some.mpr hsvc)

/-- The services of an accepted stack have accepted names. -/
theorem stack_name_accepted (h : acceptConfig config = .ok ()) {stackName : String}
    {stack : StackConfig} (hstack : config.stackConfigs[stackName]? = some stack)
    {name : String} (hname : name ∈ stack.services) :
    validateNameForPathComponent "service" name = .ok () := by
  obtain ⟨svc, hsvc⟩ := Option.isSome_iff_exists.mp
    (Std.ExtTreeMap.mem_iff_isSome_getElem?.mp hname)
  have hservice := service_accepted h hstack hsvc
  simp only [validateStackService, andThen_ok, named_ok] at hservice
  exact hservice.1

/-- So have the globals of an accepted configuration. -/
theorem global_name_accepted (h : acceptConfig config = .ok ())
    {globals : BTreeMap ServiceConfig} (hglobals : config.globals = some globals)
    {name : String} (hname : name ∈ globals) :
    validateNameForPathComponent "service" name = .ok () := by
  obtain ⟨svc, hsvc⟩ := Option.isSome_iff_exists.mp
    (Std.ExtTreeMap.mem_iff_isSome_getElem?.mp hname)
  have hservice := global_accepted h hglobals hsvc
  simp only [validateGlobal, andThen_ok, named_ok] at hservice
  exact hservice.1

end Accepted

end DevstackValidate
