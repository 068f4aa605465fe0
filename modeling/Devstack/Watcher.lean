import Devstack.EnvLayers
import Devstack.Lib.Machine

/-! # Watcher — restarts by the watcher against a launch

    The task of `spawn_service_auto_restart_watcher` (`src/app/launch/watch.rs`) with
    `restart_service_no_wait` (`src/app/commands/restart.rs`), between its awaits.  The
    watcher keeps the arguments it was spawned with, the fingerprint among them, and
    restarts the unit with the properties of its launch; a launch prepares both anew
    from the files.  The watcher is not paused: a paused one handles no change. -/

namespace DevstackWatcher

open DevstackMachine DevstackModel DevstackConfig DevstackLaunch DevstackPrepare

/-! ## The watcher -/

/-- What a process, or the unit it belongs to, is started with. -/
structure Launched where
  cmd : String
  env : BTreeMap String
  deriving DecidableEq

/-- The arguments of the watcher's task. -/
structure Captured where
  cwd : String
  watchPatterns : List String
  ignorePatterns : List String
  watchExtraFiles : List String
  watchFingerprint : List UInt8

/-- `compute_watch_hash`, as the watcher calls it. -/
def Captured.hash (tools : Tools) (files : Files) (captured : Captured) : Except String String :=
  tools.watchHash files captured.cwd (hashPatterns captured.watchPatterns)
    captured.ignorePatterns captured.watchExtraFiles captured.watchFingerprint

/-- Where the watcher's task stands. -/
inductive Phase where
  | waiting (pending : Bool)
  /-- the hash is computed, the run not locked -/
  | hashed (nextHash : String)
  /-- `restart_service_inner`, before its first lock -/
  | restart
  /-- the same before `restart_unit` -/
  | restartUnit
  /-- the same before the lock after it -/
  | restarted
  deriving DecidableEq, Repr

/-- One service: the files, the events the watcher has not received, the unit's
    properties, the process that was started last, the record, the watcher's task,
    the readiness tasks under way. -/
structure World where
  files : Files
  events : Nat
  unit : Launched
  process : Launched
  record : ServiceRecord
  captured : Captured
  phase : Phase
  probes : Nat

/-- A file changes, with an event for the watcher; the watcher receives an event; it has
    waited for half a second; it takes its next step, with the answer of what it
    calls; a readiness task ends; another task of the daemon writes the service's
    state, or restarts its unit. -/
inductive Action where
  | change (files : Files)
  | deliver
  | elapse
  | turn (answer : Except String Unit) (now : String)
  | readiness (answer : Except String Unit)
  | other (state : ServiceState) (lastFailure : Option String) (restarts : Bool)

section Steps

variable (tools : Tools) (w : World)

/-- The lock of the watcher: whether the service is to be restarted. -/
def compareHash (nextHash : String) : World :=
  if !w.record.spec.autoRestart || w.record.runtime.watchPaused
      || decide (w.record.launch.watchHash = nextHash) then
    { w with phase := .waiting false }
  else
    { w with
      record := { w.record with launch := { w.record.launch with watchHash := nextHash } }
      phase := .restart }

/-- The first lock of a restart; then the tasks after readiness are looked up. -/
def beginRestart (postInit : Except String Unit) : World :=
  { w with
    record :=
      { w.record with runtime := { w.record.runtime with state := .starting, lastFailure := none } }
    phase :=
      match postInit with
      | .ok _ => .restartUnit
      | .error _ => .waiting false }

/-- `restart_unit`. -/
def restartUnit (answer : Except String Unit) : World :=
  match answer with
  | .ok _ => { w with process := w.unit, phase := .restarted }
  | .error _ => { w with phase := .waiting false }

/-- The lock after it, and the readiness task. -/
def finishRestart (now : String) : World :=
  { w with
    record := { w.record with runtime := { w.record.runtime with lastStartedAt := some now } }
    phase := .waiting false
    probes := w.probes + 1 }

/-- The end of a readiness task: the service is marked ready or failed. -/
def endReadiness (answer : Except String Unit) : World :=
  let runtime :=
    match answer with
    | .ok _ => { w.record.runtime with state := .ready, lastFailure := none }
    | .error err => { w.record.runtime with state := .failed, lastFailure := some err }
  { w with record := { w.record with runtime }, probes := w.probes - 1 }

def step : Action → World
  | .change files => { w with files, events := w.events + 1 }
  | .deliver =>
      match w.phase with
      | .waiting _ =>
          if 0 < w.events then { w with events := w.events - 1, phase := .waiting true } else w
      | _ => w
  | .elapse =>
      match w.phase with
      | .waiting true =>
          match w.captured.hash tools w.files with
          | .ok nextHash => { w with phase := .hashed nextHash }
          | .error _ => { w with phase := .waiting false }
      | _ => w
  | .turn answer now =>
      match w.phase with
      | .waiting _ => w
      | .hashed nextHash => compareHash w nextHash
      | .restart => beginRestart w answer
      | .restartUnit => restartUnit w answer
      | .restarted => finishRestart w now
  | .readiness answer => if 0 < w.probes then endReadiness w answer else w
  | .other state lastFailure restarts =>
      { w with
        process := if restarts then w.unit else w.process
        record := { w.record with runtime := { w.record.runtime with state, lastFailure } } }

end Steps

/-- A service as it was launched: started from what was prepared, its watcher spawned,
    its readiness task under way. -/
def launched (files : Files) (prepared : PreparedService) (now : String) : World where
  files := files
  events := 0
  unit := ⟨prepared.cmd, prepared.env⟩
  process := ⟨prepared.cmd, prepared.env⟩
  record := intoServiceRecord prepared .starting none (some now)
  captured := ⟨prepared.cwd, prepared.watchPatterns, prepared.ignorePatterns,
    prepared.watchExtraFiles, prepared.watchFingerprint⟩
  phase := .waiting false
  probes := 1

/-- The watcher has nothing left to handle. -/
def World.Quiescent (w : World) : Prop := w.events = 0 ∧ w.phase = .waiting false

/-- The process was started with what a launch from the files as they are now prepares,
    the record has its hash, and an `up` leaves the service running. -/
def Agrees (tools : Tools) (args : PrepareArgs) (name : String) (svc : ServiceConfig)
    (w : World) : Prop :=
  ∃ prepared, prepareService tools w.files args name svc = .ok prepared
    ∧ w.process = ⟨prepared.cmd, prepared.env⟩
    ∧ w.record.launch.watchHash = prepared.watchHash
    ∧ serviceNeedsRestart false
        ((∅ : BTreeMap ExistingServiceSnapshot).insert name (.of w.record)) name prepared = false

/-! ## The invariant -/

/-- The hash in the record is that of the files, if the watcher could compute it. -/
def Current (tools : Tools) (w : World) : Prop :=
  ∀ hash, w.captured.hash tools w.files = .ok hash → w.record.launch.watchHash = hash

/-- What the watcher knows of the files, when no event is under way. -/
def Handled (tools : Tools) (w : World) : Prop :=
  match w.phase with
  | .waiting true => True
  | .hashed nextHash => w.captured.hash tools w.files = .ok nextHash
  | _ => Current tools w

/-- Whatever happens, the unit and the process are those of the launch. -/
structure Inv (tools : Tools) (prepared : PreparedService) (w : World) : Prop where
  unit : w.unit = ⟨prepared.cmd, prepared.env⟩
  process : w.process = ⟨prepared.cmd, prepared.env⟩
  captured : w.captured = ⟨prepared.cwd, prepared.watchPatterns, prepared.ignorePatterns,
    prepared.watchExtraFiles, prepared.watchFingerprint⟩
  autoRestart : w.record.spec.autoRestart = true
  watching : w.record.runtime.watchPaused = false
  handled : w.events = 0 → Handled tools w

section Invariant

variable {tools : Tools} {prepared : PreparedService} {w : World}

/-- A step that leaves the files and the watcher alone. -/
theorem Inv.same {w' : World} (h : Inv tools prepared w) (hunit : w'.unit = w.unit)
    (hprocess : w'.process = w.process ∨ w'.process = w.unit) (hcaptured : w'.captured = w.captured)
    (hspec : w'.record.spec = w.record.spec)
    (hpaused : w'.record.runtime.watchPaused = w.record.runtime.watchPaused)
    (hhandled : w'.events = 0 → Handled tools w') : Inv tools prepared w' where
  unit := hunit.trans h.unit
  process := by
    rcases hprocess with hprocess | hprocess
    · exact hprocess.trans h.process
    · exact hprocess.trans h.unit
  captured := hcaptured.trans h.captured
  autoRestart := by rw [hspec]; exact h.autoRestart
  watching := hpaused.trans h.watching
  handled := hhandled

theorem inv_compareHash {nextHash : String} (h : Inv tools prepared w)
    (hphase : w.phase = .hashed nextHash) : Inv tools prepared (compareHash w nextHash) := by
  have hhash : w.events = 0 → w.captured.hash tools w.files = .ok nextHash := by
    intro hevents
    have hhandled := h.handled hevents
    rw [Handled, hphase] at hhandled
    exact hhandled
  rw [compareHash]
  split
  · next hskip =>
      refine h.same rfl (.inl rfl) rfl rfl rfl ?_
      intro hevents hash hcomputed
      obtain rfl := Except.ok.inj ((hhash hevents).symm.trans hcomputed)
      -- the watcher skips only a hash that the record has
      rw [h.autoRestart, h.watching] at hskip
      simpa using hskip
  · refine h.same rfl (.inl rfl) rfl rfl rfl ?_
    intro hevents hash hcomputed
    exact Except.ok.inj ((hhash hevents).symm.trans hcomputed)

/-- A restart under way, once its hash is in the record. -/
theorem inv_restarting {w' : World} (h : Inv tools prepared w)
    (hphase : w.phase = .restart ∨ w.phase = .restartUnit ∨ w.phase = .restarted)
    (hphase' : w'.phase = .waiting false ∨ w'.phase = .restartUnit ∨ w'.phase = .restarted)
    (hfiles : w'.files = w.files) (hevents : w'.events = w.events) (hunit : w'.unit = w.unit)
    (hprocess : w'.process = w.process ∨ w'.process = w.unit) (hcaptured : w'.captured = w.captured)
    (hspec : w'.record.spec = w.record.spec)
    (hhash : w'.record.launch.watchHash = w.record.launch.watchHash)
    (hpaused : w'.record.runtime.watchPaused = w.record.runtime.watchPaused) :
    Inv tools prepared w' := by
  refine h.same hunit hprocess hcaptured hspec hpaused ?_
  intro hnone
  have hcurrent : Current tools w := by
    have hhandled := h.handled (hevents ▸ hnone)
    rw [Handled] at hhandled
    rcases hphase with hphase | hphase | hphase <;> rw [hphase] at hhandled <;> exact hhandled
  have hcurrent' : Current tools w' := by
    intro hash hcomputed
    rw [hcaptured, hfiles] at hcomputed
    exact hhash.trans (hcurrent hash hcomputed)
  rw [Handled]
  rcases hphase' with hphase' | hphase' | hphase' <;> rw [hphase'] <;> exact hcurrent'

theorem inv_step (h : Inv tools prepared w) (a : Action) : Inv tools prepared (step tools w a) := by
  cases a with
  | change files =>
      refine h.same rfl (.inl rfl) rfl rfl rfl ?_
      intro hevents
      exact absurd hevents (Nat.succ_ne_zero w.events)
  | deliver =>
      rw [step]
      cases hphase : w.phase with
      | waiting pending =>
          by_cases hevents : 0 < w.events
          · rw [if_pos hevents]
            exact h.same rfl (.inl rfl) rfl rfl rfl (fun _ => trivial)
          · rw [if_neg hevents]
            exact h
      | hashed nextHash => exact h
      | restart => exact h
      | restartUnit => exact h
      | restarted => exact h
  | elapse =>
      rw [step]
      cases hphase : w.phase with
      | waiting pending =>
          cases pending with
          | false => exact h
          | true =>
              dsimp only
              cases hhash : w.captured.hash tools w.files with
              | ok nextHash => exact h.same rfl (.inl rfl) rfl rfl rfl (fun _ => hhash)
              | error err =>
                  refine h.same rfl (.inl rfl) rfl rfl rfl ?_
                  intro _ hash hcomputed
                  exact nomatch hhash.symm.trans hcomputed
      | hashed nextHash => exact h
      | restart => exact h
      | restartUnit => exact h
      | restarted => exact h
  | turn answer now =>
      rw [step]
      cases hphase : w.phase with
      | waiting pending => exact h
      | hashed nextHash => exact inv_compareHash h hphase
      | restart =>
          refine inv_restarting h (.inl hphase) ?_ rfl rfl rfl (.inl rfl) rfl rfl rfl rfl
          cases answer with
          | ok u => exact .inr (.inl rfl)
          | error err => exact .inl rfl
      | restartUnit =>
          cases answer with
          | ok u =>
              exact inv_restarting h (.inr (.inl hphase)) (.inr (.inr rfl)) rfl rfl rfl (.inr rfl) rfl
                rfl rfl rfl
          | error err =>
              exact inv_restarting h (.inr (.inl hphase)) (.inl rfl) rfl rfl rfl (.inl rfl) rfl rfl rfl
                rfl
      | restarted =>
          exact inv_restarting h (.inr (.inr hphase)) (.inl rfl) rfl rfl rfl (.inl rfl) rfl rfl rfl rfl
  | readiness answer =>
      rw [step]
      by_cases hprobes : 0 < w.probes
      · rw [if_pos hprobes]
        cases answer with
        | ok u => exact h.same rfl (.inl rfl) rfl rfl rfl h.handled
        | error err => exact h.same rfl (.inl rfl) rfl rfl rfl h.handled
      · rw [if_neg hprobes]
        exact h
  | other state lastFailure restarts =>
      rw [step]
      cases restarts with
      | true => exact h.same rfl (.inr rfl) rfl rfl rfl h.handled
      | false => exact h.same rfl (.inl rfl) rfl rfl rfl h.handled

variable {args : PrepareArgs} {name : String} {svc : ServiceConfig} {files : Files}

theorem inv_launched (hauto : svc.autoRestart = true)
    (h : prepareService tools files args name svc = .ok prepared) (now : String) :
    Inv tools prepared (launched files prepared now) := by
  obtain ⟨envFilePath, hcarries⟩ := prepareService_ok.mp h
  refine ⟨rfl, rfl, rfl, hcarries.autoRestart.trans hauto, rfl, ?_⟩
  intro _ hash hcomputed
  have hhash := hcarries.hash
  rw [← hcarries.extraFiles] at hhash
  exact Except.ok.inj (hhash.symm.trans hcomputed)

/-- In a quiet state with a ready service, the two paths agree exactly if the env files
    lead to the environment of the launch and the hash can be computed. -/
theorem agrees_iff (hprepared : prepareService tools files args name svc = .ok prepared)
    (h : Inv tools prepared w) (hquiet : w.Quiescent) (hready : w.record.runtime.state = .ready) :
    Agrees tools args name svc w
      ↔ EnvFilesAgree tools args name svc w.files files
        ∧ ∃ hash, tools.watchHash w.files prepared.cwd (hashPatterns prepared.watchPatterns)
            prepared.ignorePatterns prepared.watchExtraFiles prepared.watchFingerprint
              = .ok hash := by
  obtain ⟨envFilePath, hcarries⟩ := prepareService_ok.mp hprepared
  rw [← launchEnv_iff hcarries.launchEnv]
  constructor
  · rintro ⟨prepared', hprepared', hprocess, -, -⟩
    have henv : prepared'.env = prepared.env :=
      congrArg Launched.env (hprocess.symm.trans h.process)
    obtain ⟨envFilePath', hcarries'⟩ := prepareService_ok.mp hprepared'
    refine ⟨by rw [← henv]; exact hcarries'.launchEnv, prepared'.watchHash, ?_⟩
    exact (prepareService_same hprepared hprepared' henv).2
  · rintro ⟨henv, hash, hhash⟩
    have hcurrent : w.record.launch.watchHash = hash := by
      have hhandled := h.handled hquiet.1
      rw [Handled, hquiet.2] at hhandled
      refine hhandled hash ?_
      rw [Captured.hash, h.captured]
      exact hhash
    refine ⟨_, prepareService_again hprepared henv hhash, h.process, hcurrent, ?_⟩
    simp [serviceNeedsRestart, ExistingServiceSnapshot.of, hcurrent, hready]

end Invariant

/-- **WHEN WATCHER AND LAUNCH AGREE.**  After any steps from a launch, once the watcher is
    quiet and the service ready: exactly when the env files agree with those of the
    launch on what reaches the environment, and the hash can be computed. -/
theorem watcher_agrees_iff {tools : Tools} {args : PrepareArgs} {name : String}
    {svc : ServiceConfig} {files : Files} {prepared : PreparedService}
    (hauto : svc.autoRestart = true)
    (hprepared : prepareService tools files args name svc = .ok prepared) (now : String)
    (as : List Action) (hquiet : (run (step tools) (launched files prepared now) as).Quiescent)
    (hready : (run (step tools) (launched files prepared now) as).record.runtime.state = .ready) :
    Agrees tools args name svc (run (step tools) (launched files prepared now) as)
      ↔ EnvFilesAgree tools args name svc
          (run (step tools) (launched files prepared now) as).files files
        ∧ ∃ hash, tools.watchHash (run (step tools) (launched files prepared now) as).files
            prepared.cwd (hashPatterns prepared.watchPatterns) prepared.ignorePatterns
            prepared.watchExtraFiles prepared.watchFingerprint = .ok hash := by
  have hstep : ∀ w a, Inv tools prepared w → Inv tools prepared (step tools w a) :=
    fun _ a h => inv_step h a
  have hinv := run_invariant (step tools) hstep as _ (inv_launched hauto hprepared now)
  exact agrees_iff hprepared hinv hquiet hready

/-! ## One service -/

/-- The bytes of a text in ASCII. -/
def envLine (text : String) : List UInt8 := text.toList.map (fun ch => ch.toNat.toUInt8)

/-- Tools for texts without placeholders and env files of one line: a hash is made of the
    fingerprint, the one source and the env file. -/
def lineTools : Tools where
  render := fun text _ => .ok text
  dotenv := fun bytes =>
    if bytes = envLine "MODE=fast" then .ok [("MODE", "fast")]
    else if bytes = envLine "MODE=slow" then .ok [("MODE", "slow")]
    else .ok []
  encode := fun payload => envLine (payload.env.getD "MODE" "")
  watchHash := fun files _ _ _ extraFiles fingerprint =>
    .ok (String.ofList ((fingerprint ++ ("/app/src/main" :: extraFiles).flatMap (fun path =>
      match files path with
      | some (.ok bytes) => bytes
      | _ => [])).map (fun byte => Char.ofNat byte.toNat)))
  home := none
  vars := fun _ => none
  dataDir := .ok "/data"
  projectHash := fun _ => "0a1b2c3d4e5f"

/-- A disk whose only file is the env file of the project directory. -/
def oneEnvFile (text : String) : Files :=
  fun path => if path = "/app/.env" then some (.ok (envLine text)) else none

/-- A source beside it. -/
def withSource (source : String) : Files :=
  fun path => if path = "/app/src/main" then some (.ok (envLine source)) else oneEnvFile "MODE=fast" path

def webArgs : PrepareArgs where
  scope := .run "dev-1" "dev"
  projectDir := "/app"
  configDir := "/app"
  portMap := ∅
  listenPortMap := ∅
  serviceSchemes := ∅
  baseEnv := ∅
  globalEnv := ∅
  globalEnvFile := none

/-- A service that watches its sources. -/
def webService : ServiceConfig :=
  { ServiceConfig.ofCmd "serve" [] with
    watch := ["src/**"]
    autoRestart := true }

/-- What is prepared for it from the env file `MODE=fast`. -/
def webPrepared : PreparedService :=
  { PreparedService.plain "web" "serve" [] with
    unitName := "devstack-run-DEV_1-WEB.service"
    captureApiBodyLimit := DevstackValidate.captureApiBodyLimit webService
    captureApiIgnore := preparedCaptureApiIgnore webService
    logPath := "/data/runs/dev-1/logs/web.log"
    env := ((∅ : BTreeMap String).insert "MODE" "fast").insert "DEV_GRACE_MS" "2000"
    watchHash := "fastMODE=fast"
    watchPatterns := ["src/**"]
    watchExtraFiles := ["/app/.env"]
    watchFingerprint := envLine "fast"
    autoRestart := true }

theorem webPrepared_eq :
    prepareService lineTools (oneEnvFile "MODE=fast") webArgs "web" webService
      = .ok webPrepared :=
  prepareService_ok.mpr ⟨"/app/.env", by constructor <;> decide +kernel⟩

/-- The files change; the watcher restarts the service, which becomes ready. -/
def edited (files : Files) : List Action :=
  [.readiness (.ok ()), .change files, .deliver, .elapse, .turn (.ok ()) "t1",
    .turn (.ok ()) "t1", .turn (.ok ()) "t1", .turn (.ok ()) "t1", .readiness (.ok ())]

/-- A source is written: the service is restarted, and is as a launch would have it. -/
theorem watcher_agrees_iff_web :
    let w := run (step lineTools) (launched (oneEnvFile "MODE=fast") webPrepared "t0")
      (edited (withSource "v2"))
    Agrees lineTools webArgs "web" webService w ∧ w.record.runtime.lastStartedAt = some "t1" := by
  obtain ⟨envFilePath, hcarries⟩ := prepareService_ok.mp webPrepared_eq
  have henv : launchEnv lineTools (withSource "v2") webArgs "web" webService
      = .ok webPrepared.env := by decide +kernel
  refine ⟨(watcher_agrees_iff rfl webPrepared_eq "t0" (edited (withSource "v2"))
    ⟨by decide +kernel, by decide +kernel⟩ (by decide +kernel)).mpr
      ⟨(launchEnv_iff hcarries.launchEnv).mp henv, _, rfl⟩, by decide +kernel⟩

/-- **AN ENV FILE THAT CHANGES A VARIABLE.**  The watcher restarts the service and records
    the new hash; the process still has the variable of the launch, and the hash is not
    the one that a launch computes. -/
theorem edited_env_not_applied :
    (run (step lineTools) (launched (oneEnvFile "MODE=fast") webPrepared "t0")
        (edited (oneEnvFile "MODE=slow"))).Quiescent
      ∧ (run (step lineTools) (launched (oneEnvFile "MODE=fast") webPrepared "t0")
        (edited (oneEnvFile "MODE=slow"))).record.runtime.state = .ready
      ∧ prepareService lineTools (oneEnvFile "MODE=fast") webArgs "web" webService
        = .ok webPrepared
      ∧ ¬ Agrees lineTools webArgs "web" webService
          (run (step lineTools) (launched (oneEnvFile "MODE=fast") webPrepared "t0")
            (edited (oneEnvFile "MODE=slow"))) := by
  refine ⟨⟨by decide +kernel, by decide +kernel⟩, by decide +kernel, webPrepared_eq, ?_⟩
  rintro ⟨prepared, hprepared, hprocess, -, -⟩
  have hslow : (prepareService lineTools (oneEnvFile "MODE=slow") webArgs "web" webService).map
      (fun p => p.env["MODE"]?) = .ok (some "slow") := by decide +kernel
  have hfiles : (run (step lineTools) (launched (oneEnvFile "MODE=fast") webPrepared "t0")
      (edited (oneEnvFile "MODE=slow"))).files = oneEnvFile "MODE=slow" := rfl
  rw [hfiles] at hprepared
  rw [hprepared] at hslow
  have hfast : (run (step lineTools) (launched (oneEnvFile "MODE=fast") webPrepared "t0")
      (edited (oneEnvFile "MODE=slow"))).process.env["MODE"]? = some "fast" := by decide +kernel
  rw [hprocess] at hfast
  exact absurd (hfast.symm.trans (Except.ok.inj hslow)) (by decide)

end DevstackWatcher
