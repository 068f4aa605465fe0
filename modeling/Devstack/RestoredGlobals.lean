import Devstack.EnvLayers
import Devstack.Globals

/-! # Restored globals — the same global, prepared at two call sites

    `prepare_global_service` of `src/app/commands/ensure_globals.rs` prepares a global
    without the variables and the env file of its configuration;
    `convert_manifest_to_global_record` prepares it with both.  Everything else they pass
    is the same, so the two agree exactly where nothing of the configuration's level
    reaches the global: each of its variables is written over, or resolves to what the
    base environment has. -/

namespace DevstackRestoredGlobals

open DevstackModel DevstackConfig DevstackLaunch DevstackPorts DevstackResources DevstackPrepare
  DevstackRestore DevstackWorld DevstackGlobals
open DevstackExclusivity (globalKey)

/-! ## A layer between two others -/

theorem extendEnv_isSome {key : String} {entries : List (String × String)}
    (h : key ∈ entries.map Prod.fst) (env : BTreeMap String) :
    ((extendEnv env entries)[key]?).isSome = true := by
  induction entries generalizing env with
  | nil => exact nomatch h
  | cons entry entries ih =>
      rw [extendEnv_cons]
      by_cases hmem : key ∈ entries.map Prod.fst
      · exact ih hmem _
      · have hkey : key = entry.1 := by
          rw [List.map_cons, List.mem_cons] at h
          exact h.resolve_right hmem
        rw [extendEnv_of_not_mem hmem, hkey, Std.ExtTreeMap.getElem?_insert_self]
        rfl

/-- What entries are written over shows where they have nothing. -/
theorem getElem?_extendEnv (env : BTreeMap String) (entries : List (String × String))
    (key : String) : (extendEnv env entries)[key]? = ((extendEnv ∅ entries)[key]?).or env[key]? := by
  by_cases hmem : key ∈ entries.map Prod.fst
  · rw [extendEnv_of_mem hmem env ∅]
    cases hget : (extendEnv ∅ entries)[key]? with
    | none =>
        have hsome := extendEnv_isSome hmem ∅
        rw [hget] at hsome
        exact nomatch hsome
    | some value => rfl
  · rw [extendEnv_of_not_mem hmem, extendEnv_of_not_mem hmem, Std.ExtTreeMap.getElem?_empty,
      Option.none_or]

/-- The entries that `merge_env_file` takes from a file. -/
def mergedEntries (fileEnv : BTreeMap String) : List (String × String) :=
  fileEnv.toList.filter (fun entry => !entry.1.startsWith "DEV_")

theorem mem_mergedEntries {fileEnv : BTreeMap String} {key : String} :
    key ∈ (mergedEntries fileEnv).map Prod.fst
      ↔ key ∈ fileEnv ∧ key.startsWith "DEV_" = false := by
  rw [mergedEntries, List.mem_map, ← Std.ExtTreeMap.mem_keys, ← Std.ExtTreeMap.map_fst_toList_eq_keys,
    List.mem_map]
  constructor
  · rintro ⟨entry, hentry, rfl⟩
    rw [List.mem_filter, Bool.not_eq_true'] at hentry
    exact ⟨⟨entry, hentry.1, rfl⟩, hentry.2⟩
  · rintro ⟨⟨entry, hentry, rfl⟩, hname⟩
    exact ⟨entry, List.mem_filter.mpr ⟨hentry, by rw [hname]; rfl⟩, rfl⟩

section Layers

variable (tools : Tools) (files : Files) (args : PrepareArgs) (name : String) (svc : ServiceConfig)

/-- The env file of a configuration, loaded. -/
def configFile : Except String (BTreeMap String) :=
  match args.globalEnvFile with
  | some path => loadEnvFile tools files path
  | none => .ok ∅

/-- The variables of a configuration's level: those of its env file, and over them its
    own. -/
def configLayer : Except String (BTreeMap String) := do
  let globalFileEnv ← configFile tools files args
  let globalEnv ← renderEnv tools args.context args.globalEnv
  return extendEnv ∅ (mergedEntries globalFileEnv ++ globalEnv.toList)

/-- The env file of a service, loaded. -/
def ownFile : Except String (BTreeMap String) := do
  let paths ← launchPaths tools args svc
  loadEnvFile tools files paths.2

/-- The configuration's level loads, and each of its variables is written over by the
    service or its env file, or resolves to what the base environment has for it. -/
def ConfigUnseen : Prop :=
  ∃ layer fileEnv, configLayer tools files args = .ok layer ∧ ownFile tools files args svc = .ok fileEnv
    ∧ ∀ (key value : String), layer[key]? = some value → key ∉ ownKeys args name svc →
        ¬ (key ∈ fileEnv ∧ key.startsWith "DEV_" = false) →
        (args.baseEnv[key]?).map (resolveEnvVars tools.vars)
          = some (resolveEnvVars tools.vars value)

variable {tools files args name svc}

theorem layeredEnv_ok {layered : BTreeMap String} :
    layeredEnv tools args svc files = .ok layered
      ↔ ∃ under fileEnv, underEnv tools files args = .ok under
          ∧ ownFile tools files args svc = .ok fileEnv
          ∧ mergeEnvFile under fileEnv = layered := by
  simp only [layeredEnv, ownFile, bind_ok]
  constructor
  · rintro ⟨paths, hpaths, under, hunder, fileEnv, hfile, hlayered⟩
    exact ⟨under, fileEnv, hunder, ⟨paths, hpaths, hfile⟩, Except.ok.inj hlayered⟩
  · rintro ⟨under, fileEnv, hunder, ⟨paths, hpaths, hfile⟩, rfl⟩
    exact ⟨paths, hpaths, under, hunder, fileEnv, hfile, rfl⟩

theorem underEnv_eq :
    underEnv tools files args = (do
      let globalFileEnv ← configFile tools files args
      let globalEnv ← renderEnv tools args.context args.globalEnv
      return extendEnv (mergeEnvFile args.baseEnv globalFileEnv) globalEnv.toList) := by
  rw [underEnv, configFile]
  cases args.globalEnvFile <;> rfl

/-- Below the service's own file is the configuration's level, over the base
    environment. -/
theorem underEnv_ok {under : BTreeMap String} :
    underEnv tools files args = .ok under
      ↔ ∃ layer, configLayer tools files args = .ok layer
          ∧ ∀ key : String, under[key]? = (layer[key]?).or args.baseEnv[key]? := by
  simp only [underEnv_eq, configLayer, bind_ok]
  constructor
  · rintro ⟨globalFileEnv, hfile, globalEnv, hrendered, hunder⟩
    refine ⟨_, ⟨globalFileEnv, hfile, globalEnv, hrendered, rfl⟩, fun key => ?_⟩
    obtain rfl := Except.ok.inj hunder
    rw [mergeEnvFile, ← extendEnv_append, ← mergedEntries, getElem?_extendEnv]
  · rintro ⟨layer, ⟨globalFileEnv, hfile, globalEnv, hrendered, hlayer⟩, hunder⟩
    refine ⟨globalFileEnv, hfile, globalEnv, hrendered, congrArg Except.ok ?_⟩
    obtain rfl := Except.ok.inj hlayer
    ext key : 1
    rw [hunder, mergeEnvFile, ← extendEnv_append, ← mergedEntries, getElem?_extendEnv args.baseEnv]

/-- A variable of the level between is seen unless the file over it has the variable, or
    the base environment under it has the same. -/
theorem layer_unseen_iff (layer base fileEnv under : BTreeMap String) (key : String)
    (resolve : String → String)
    (hunder : under[key]? = (layer[key]?).or base[key]?) :
    ((mergeEnvFile under fileEnv)[key]?).map resolve
        = ((mergeEnvFile base fileEnv)[key]?).map resolve
      ↔ ∀ value, layer[key]? = some value → ¬ (key ∈ fileEnv ∧ key.startsWith "DEV_" = false) →
          (base[key]?).map resolve = some (resolve value) := by
  rw [mergeEnvFile, mergeEnvFile, ← mergedEntries, ← mem_mergedEntries]
  by_cases hfile : key ∈ (mergedEntries fileEnv).map Prod.fst
  · rw [extendEnv_of_mem hfile under base]
    exact ⟨fun _ value _ hnot => absurd hfile hnot, fun _ => rfl⟩
  · rw [extendEnv_of_not_mem hfile, extendEnv_of_not_mem hfile, hunder]
    cases hlayer : layer[key]? with
    | none => exact ⟨fun _ value h => (nomatch h), fun _ => rfl⟩
    | some value =>
        constructor
        · rintro hsame _ ⟨⟩ -
          exact hsame.symm
        · intro hsame
          exact (hsame value rfl hfile).symm

end Layers

section Again

variable {tools : Tools} {files : Files} {args : PrepareArgs} {name : String} {svc : ServiceConfig}

/-- The same arguments, with the variables and the env file of a configuration. -/
def withConfig (args : PrepareArgs) (globalEnv : BTreeMap String) (globalEnvFile : Option String) :
    PrepareArgs :=
  { args with globalEnv, globalEnvFile }

variable {globalEnv : BTreeMap String} {globalEnvFile : Option String}

/-- Without a configuration's level, the base environment is all there is below a
    service's file. -/
theorem underEnv_plain (hglobalEnv : args.globalEnv = ∅) (hglobalFile : args.globalEnvFile = none) :
    underEnv tools files args = .ok args.baseEnv := by
  rw [underEnv, hglobalEnv, hglobalFile]
  rfl

/-- The environment is the one prepared without the configuration's level exactly if
    nothing of that level is seen. -/
theorem launchEnv_withConfig_iff (hglobalEnv : args.globalEnv = ∅)
    (hglobalFile : args.globalEnvFile = none) {env : BTreeMap String}
    (h : launchEnv tools files args name svc = .ok env) :
    launchEnv tools files (withConfig args globalEnv globalEnvFile) name svc = .ok env
      ↔ ConfigUnseen tools files (withConfig args globalEnv globalEnvFile) name svc := by
  obtain ⟨layered, renderedEnv, hlayered, hrendered, rfl⟩ := launchEnv_ok.mp h
  obtain ⟨under, fileEnv, hunder, hfile, rfl⟩ := layeredEnv_ok.mp hlayered
  obtain rfl := Except.ok.inj ((underEnv_plain hglobalEnv hglobalFile).symm.trans hunder)
  constructor
  · intro hconfig
    obtain ⟨layered', renderedEnv', hlayered', hrendered', hover⟩ := launchEnv_ok.mp hconfig
    obtain rfl : renderedEnv = renderedEnv' := Except.ok.inj (hrendered.symm.trans hrendered')
    obtain ⟨under, fileEnv', hunder, hfile', rfl⟩ := layeredEnv_ok.mp hlayered'
    obtain rfl : fileEnv = fileEnv' := Except.ok.inj (hfile.symm.trans hfile')
    obtain ⟨layer, hlayer, hget⟩ := underEnv_ok.mp hunder
    refine ⟨layer, fileEnv, hlayer, hfile', fun key value hvalue hown hnot => ?_⟩
    exact (layer_unseen_iff layer args.baseEnv fileEnv under key _ (hget key)).mp
      ((overEnv_eq_iff hrendered _ _).mp hover key hown) value hvalue hnot
  · rintro ⟨layer, fileEnv', hlayer, hfile', hunseen⟩
    obtain rfl : fileEnv = fileEnv' := Except.ok.inj (hfile.symm.trans hfile')
    obtain ⟨under, hunder⟩ : ∃ under, underEnv tools files (withConfig args globalEnv globalEnvFile)
        = .ok under := by
      simp only [configLayer, bind_ok] at hlayer
      obtain ⟨globalFileEnv, hglobalFile, rendered, hglobal, -⟩ := hlayer
      rw [underEnv_eq]
      exact ⟨_, bind_ok.mpr ⟨globalFileEnv, hglobalFile, bind_ok.mpr ⟨rendered, hglobal, rfl⟩⟩⟩
    obtain ⟨layer', hlayer', hget⟩ := underEnv_ok.mp hunder
    obtain rfl := Except.ok.inj (hlayer.symm.trans hlayer')
    refine launchEnv_ok.mpr ⟨_, renderedEnv, layeredEnv_ok.mpr ⟨under, fileEnv, hunder, hfile, rfl⟩,
      hrendered, (overEnv_eq_iff hrendered _ _).mpr fun key hown => ?_⟩
    exact (layer_unseen_iff layer args.baseEnv fileEnv under key _ (hget key)).mpr
      fun value hvalue hnot => hunseen key value hvalue hown hnot

/-- What of a preparation does not depend on the level: everything but the environment
    and what is computed from it. -/
theorem prepareService_withConfig {prepared : PreparedService}
    (h : prepareService tools files args name svc = .ok prepared)
    (henv : launchEnv tools files (withConfig args globalEnv globalEnvFile) name svc
      = .ok prepared.env) :
    prepareService tools files (withConfig args globalEnv globalEnvFile) name svc
      = .ok prepared := by
  obtain ⟨envFilePath, hcarries⟩ := prepareService_ok.mp h
  obtain ⟨paths, hpaths, hprepared⟩ := bind_ok.mp henv
  obtain rfl := Except.ok.inj (hcarries.paths.symm.trans hpaths)
  exact prepareService_ok.mpr ⟨envFilePath, { hcarries with env := hprepared }⟩

/-- Prepared with a configuration's level, a service has the environment that it has
    without exactly if nothing of that level is seen; it then is the same service. -/
theorem prepareService_withConfig_iff (hglobalEnv : args.globalEnv = ∅)
    (hglobalFile : args.globalEnvFile = none) {prepared : PreparedService}
    (h : prepareService tools files args name svc = .ok prepared) :
    (∃ prepared', prepareService tools files (withConfig args globalEnv globalEnvFile) name svc
          = .ok prepared' ∧ prepared'.env = prepared.env)
      ↔ ConfigUnseen tools files (withConfig args globalEnv globalEnvFile) name svc := by
  obtain ⟨envFilePath, hcarries⟩ := prepareService_ok.mp h
  rw [← launchEnv_withConfig_iff hglobalEnv hglobalFile hcarries.launchEnv]
  constructor
  · rintro ⟨prepared', hprepared', henv⟩
    obtain ⟨_, hcarries'⟩ := prepareService_ok.mp hprepared'
    rw [← henv]
    exact hcarries'.launchEnv
  · intro henv
    exact ⟨prepared, prepareService_withConfig h henv, rfl⟩

end Again

/-! ## What a turn stores -/

/-- What a new daemon prepares a global from, and what it is compared with. -/
structure Plan where
  key : String
  name : String
  projectDir : String
  configPath : String
  spec : ServiceSpec
  launch : ServiceLaunchPlan

def planOf (record : GlobalRecord) : Plan :=
  ⟨record.key, record.name, record.projectDir, record.configPath, record.service.spec,
    record.service.launch⟩

theorem plan_watchSync (record : GlobalRecord) :
    planOf { record with service := (watchSyncBegin record.service).1 } = planOf record := by
  rw [planOf, planOf, watchSyncBegin]
  split <;> rfl

theorem plan_watchSyncKeep (record : GlobalRecord) (handle : HandleId) :
    planOf { record with service := watchSyncKeep handle record.service } = planOf record := by
  rw [planOf, planOf, watchSyncKeep]
  split <;> rfl

/-- A global is stored with a plan: its record has it, and its manifest, where it was
    written, is one of a record that has it. -/
structure Stored (plan : Plan) (written : Except String Unit) (s : System) : Prop where
  record : (s.globals[plan.key]?).map planOf = some plan
  manifest : written = .ok () →
    ∃ record, planOf record = plan ∧ s.manifests[plan.key]? = some (persistedGlobal record)

/-- A record that is stored keeps its plan, whatever is answered afterwards. -/
theorem storeGlobal_stored (answers : Answers) (record : GlobalRecord) (s : System) :
    Stored (planOf record) answers.written (storeGlobal answers record s).2 := by
  have hinsert : (s.globals.insert record.key record)[record.key]? = some record :=
    Std.ExtTreeMap.getElem?_insert_self
  simp only [storeGlobal, persistGlobalManifest, hinsert]
  cases answers.written with
  | error err => exact ⟨congrArg (Option.map planOf) hinsert, fun h => (by cases h)⟩
  | ok u =>
      have hmanifest : Except.ok u = Except.ok (ε := String) () →
          ∃ record', planOf record' = planOf record
            ∧ (s.manifests.insert record.key (persistedGlobal record))[record.key]?
              = some (persistedGlobal record') :=
        fun _ => ⟨record, rfl, Std.ExtTreeMap.getElem?_insert_self⟩
      simp only [syncGlobalAutoRestartWatcher, hinsert]
      by_cases hkeeps : watchSyncKeeps (watchSyncBegin record.service).1 = true
      · rw [if_pos hkeeps]
        cases answers.watcher with
        | error err => exact ⟨congrArg (Option.map planOf) hinsert, hmanifest⟩
        | ok handle =>
            refine ⟨?_, hmanifest⟩
            rw [planOf, Std.ExtTreeMap.getElem?_insert_self, Option.map_some, ← planOf]
            rw [← plan_watchSync record]
            exact congrArg some (plan_watchSyncKeep
              { record with service := (watchSyncBegin record.service).1 } handle)
      · rw [if_neg hkeeps]
        refine ⟨?_, hmanifest⟩
        rw [planOf, Std.ExtTreeMap.getElem?_insert_self, Option.map_some, ← planOf, plan_watchSync]

section Turn

variable {host : Host} {tools : Tools} {call : Call}

/-- The plan of a global that was prepared. -/
def preparedPlan (call : Call) (key name : String) (prepared : PreparedService) : Plan :=
  ⟨key, name, call.projectDir, call.configPath, prepared.spec, prepared.launch⟩

theorem finishGlobal_stored (answers : Answers) (key name : String)
    (existing : Option PersistedGlobal) (prepared : PreparedService) (s : System) :
    Stored (preparedPlan call key name prepared) answers.written
      (finishGlobal call answers key name existing prepared s).2 := by
  rw [finishGlobal]
  split
  · rw [keepGlobal]
    generalize hrecord : buildGlobalRecord call key name prepared _ _ _ _ _ _ = record
    have hplan : planOf record = preparedPlan call key name prepared := by
      rw [← hrecord]
      rfl
    rw [← hplan]
    exact storeGlobal_stored answers record s
  · have hplan : planOf (launchedRecord call answers key name existing prepared)
        = preparedPlan call key name prepared := by
      rw [launchedRecord]
      cases launchFailure answers name <;> rfl
    have hstored := storeGlobal_stored answers
      (launchedRecord call answers key name existing prepared) (startUnit answers.started prepared s)
    rw [hplan] at hstored
    rw [launchGlobal]
    cases hstore : storeGlobal answers (launchedRecord call answers key name existing prepared)
      (startUnit answers.started prepared s) with
    | mk result s' =>
        rw [hstore] at hstored
        cases result with
        | error err => exact hstored
        | ok u => cases launchFailure answers name <;> exact hstored

/-- A turn that no error ends before its record is stored leaves the plan that it prepared. -/
theorem ensureGlobal_stored {key name : String} {service : ServiceConfig} {s : System}
    (hkey : globalKey (tools.projectHash call.projectDir) name = .ok key)
    (hdirectories : (call.answers name).directories = .ok ())
    (hreaches : ReachesStore host tools call key name service s) :
    ∃ port prepared,
      prepareService tools call.files (globalArgs call key name service port) name service
          = .ok prepared
        ∧ Stored (preparedPlan call key name prepared) (call.answers name).written
          (ensureGlobal host tools call name service s).2 := by
  obtain ⟨port, ports, prepared, hresolve, hprepare⟩ := hreaches
  refine ⟨port, prepared, hprepare, ?_⟩
  rw [ensureGlobal, hkey, hdirectories]
  simp only [hresolve, hprepare]
  have hfinish := @finishGlobal_stored call (call.answers name) key name
    (existingManifest (call.answers name) key s) prepared { s with ports := ports }
  cases hcall : finishGlobal call (call.answers name) key name
    (existingManifest (call.answers name) key s) prepared { s with ports := ports } with
  | mk result s' =>
      rw [hcall] at hfinish
      cases result <;> exact hfinish

end Turn

/-! ## Restored as it was started -/

/-- The record that a new daemon makes of a manifest has the environment, the command, the
    readiness and the fingerprint of a record. -/
def RestoresAs (tools : Tools) (files : Files) (config : ConfigFile) (manifest : PersistedGlobal)
    (record : GlobalRecord) : Prop :=
  ∃ restored, convertManifestToGlobalRecord tools files manifest config = .ok restored
    ∧ restored.service.launch.env = record.service.launch.env
    ∧ restored.service.launch.cmd = record.service.launch.cmd
    ∧ restored.service.spec.readiness = record.service.spec.readiness
    ∧ restored.service.launch.watchFingerprint = record.service.launch.watchFingerprint

/-- What the manifest of a turn is prepared with is what the turn prepared with, and the
    configuration's level. -/
theorem restoreGlobalArgs_eq {tools : Tools} {call : Call} {key name : String}
    {service : ServiceConfig} {port : Option Port} {prepared : PreparedService}
    {record : GlobalRecord} (config : ConfigFile)
    (hprepare : prepareService tools call.files (globalArgs call key name service port) name service
      = .ok prepared)
    (hplan : planOf record = preparedPlan call key name prepared)
    (hconfigDir : call.configDir = (parentPath call.configPath).getD call.projectDir) :
    restoreGlobalArgs (persistedGlobal record) config service
      = withConfig (globalArgs call key name service port) config.env
          (globalEnvFilePath config call.configDir) := by
  obtain ⟨envFilePath, hcarries⟩ := prepareService_ok.mp hprepare
  have hport : prepared.port = port := by
    rw [hcarries.port, globalArgs, soleArgs_port]
  have hlisten : prepared.listenPort = port := by
    rw [hcarries.listenPort]
    simp [globalArgs, soleArgs, PrepareArgs.listenPort]
  obtain ⟨recordKey, recordName, projectDir, configPath, serviceRecord, state, createdAt,
    stoppedAt⟩ := record
  obtain ⟨rfl, rfl, rfl, rfl, -, hlaunch⟩ := Plan.mk.inj hplan
  have hlaunchPort : serviceRecord.launch.port = port :=
    (congrArg ServiceLaunchPlan.port hlaunch).trans hport
  have hlaunchListen : serviceRecord.launch.listenPort = port :=
    (congrArg ServiceLaunchPlan.listenPort hlaunch).trans hlisten
  have hor : port.or port = port := by cases port <;> rfl
  simp only [restoreGlobalArgs, persistedGlobal, persistedService, withConfig, globalArgs,
    hlaunchPort, hlaunchListen, hor, hconfigDir]

/-- **A GLOBAL IS RESTORED AS IT WAS STARTED** exactly if nothing of its configuration's
    level would be seen. -/
theorem restores_as_started_iff (host : Host) (tools : Tools) (call : Call) (s : System)
    (config : ConfigFile) {key name : String} {service : ServiceConfig}
    {manifest : PersistedGlobal} {record : GlobalRecord}
    (hservice : (globalsMap config)[name]? = some service)
    (hconfigDir : call.configDir = (parentPath call.configPath).getD call.projectDir)
    (hkey : globalKey (tools.projectHash call.projectDir) name = .ok key)
    (hdirectories : (call.answers name).directories = .ok ())
    (hreaches : ReachesStore host tools call key name service s)
    (hwritten : (call.answers name).written = .ok ())
    (hmanifest : (ensureGlobal host tools call name service s).2.manifests[key]? = some manifest)
    (hrecord : (ensureGlobal host tools call name service s).2.globals[key]? = some record) :
    RestoresAs tools call.files config manifest record
      ↔ ConfigUnseen tools call.files (restoreGlobalArgs manifest config service) name service := by
  obtain ⟨port, prepared, hprepare, hstored⟩ := ensureGlobal_stored hkey hdirectories hreaches
  obtain ⟨record', hplan', hget⟩ := hstored.manifest hwritten
  obtain rfl : manifest = persistedGlobal record' := Option.some.inj (hmanifest.symm.trans hget)
  have hplan : planOf record = preparedPlan call key name prepared := by
    have hmap := hstored.record
    rw [show (preparedPlan call key name prepared).key = key from rfl, hrecord] at hmap
    exact Option.some.inj hmap
  have hlaunch : record.service.launch = prepared.launch := congrArg Plan.launch hplan
  have hspec : record.service.spec = prepared.spec := congrArg Plan.spec hplan
  have hname : (persistedGlobal record').name = name := congrArg Plan.name hplan'
  have hlookup : (globalsMap config)[(persistedGlobal record').name]? = some service := by
    rw [hname, hservice]
  rw [restoreGlobalArgs_eq config hprepare hplan' hconfigDir,
    ← prepareService_withConfig_iff rfl rfl hprepare]
  constructor
  · rintro ⟨restored, hrestored, henv, -⟩
    obtain ⟨service', prepared', hservice', hprepared', -, -, hrestored'⟩ :=
      convertManifestToGlobalRecord_ok hrestored
    obtain rfl : service = service' := Option.some.inj (hlookup.symm.trans hservice')
    rw [restoreGlobalArgs_eq config hprepare hplan' hconfigDir, hname] at hprepared'
    refine ⟨prepared', hprepared', ?_⟩
    rw [hrestored', hlaunch] at henv
    exact henv
  · intro hagain
    have hprepared' : prepareService tools call.files
        (restoreGlobalArgs (persistedGlobal record') config service) (persistedGlobal record').name
        service = .ok prepared := by
      rw [restoreGlobalArgs_eq config hprepare hplan' hconfigDir, hname]
      obtain ⟨envFilePath, hcarries⟩ := prepareService_ok.mp hprepare
      exact prepareService_withConfig hprepare
        ((launchEnv_withConfig_iff rfl rfl hcarries.launchEnv).mpr
          ((prepareService_withConfig_iff rfl rfl hprepare).mp hagain))
    rw [RestoresAs, convertManifestToGlobalRecord, hlookup, hlaunch, hspec]
    exact ⟨_, bind_ok.mpr ⟨prepared, hprepared', rfl⟩, rfl, rfl, rfl, rfl⟩

/-! ## One global under a configuration's variables -/

/-- One stack and one global, with the given variables. -/
def cacheConfig (env : List (String × String)) : ConfigFile where
  version := 1
  stackConfigs := Std.ExtTreeMap.ofList [("dev", StackConfig.mk ∅)]
  defaultStack := none
  globals := some (cacheCall 6379 none).globals
  tasks := none
  env := Std.ExtTreeMap.ofList env
  envFile := none

/-- The daemon after the turn that started the global. -/
def cacheStarted : System :=
  (ensureGlobal freeHost plainTools (cacheCall 6379 none) "cache" (cacheService 6379)
    (boot ⟨∅, []⟩ ∅)).2

theorem cacheStarted_stored : ∃ manifest record,
    cacheStarted.manifests["0a1b2c3d4e5f__cache"]? = some manifest
      ∧ cacheStarted.globals["0a1b2c3d4e5f__cache"]? = some record := by
  have hstored : (cacheStarted.manifests["0a1b2c3d4e5f__cache"]?).isSome = true
      ∧ (cacheStarted.globals["0a1b2c3d4e5f__cache"]?).isSome = true := by decide +kernel
  obtain ⟨manifest, hmanifest⟩ := Option.isSome_iff_exists.mp hstored.1
  obtain ⟨record, hrecord⟩ := Option.isSome_iff_exists.mp hstored.2
  exact ⟨manifest, record, hmanifest, hrecord⟩

/-- The environments of the record and of what is restored from its manifest. -/
def cacheEnvs (env : List (String × String)) :
    Option (BTreeMap String × Option (BTreeMap String)) := do
  let manifest ← cacheStarted.manifests["0a1b2c3d4e5f__cache"]?
  let record ← cacheStarted.globals["0a1b2c3d4e5f__cache"]?
  let restored := convertManifestToGlobalRecord plainTools (cacheCall 6379 none).files manifest
    (cacheConfig env)
  return (record.service.launch.env, restored.toOption.map (·.service.launch.env))

/-- What the configuration's level writes over, of a global that is restored. -/
def layerOverwritten (args : PrepareArgs) (name : String) (service : ServiceConfig) : Bool :=
  match configLayer plainTools (cacheCall 6379 none).files args,
    ownFile plainTools (cacheCall 6379 none).files args service with
  | .ok layer, .ok _ => layer.toList.all (fun entry => ownKeys args name service |>.contains entry.1)
  | _, _ => false

theorem configUnseen_of_overwritten {args : PrepareArgs} {name : String} {service : ServiceConfig}
    (h : layerOverwritten args name service = true) :
    ConfigUnseen plainTools (cacheCall 6379 none).files args name service := by
  rw [layerOverwritten] at h
  split at h
  · next layer fileEnv hlayer hfile =>
      refine ⟨layer, fileEnv, hlayer, hfile, fun key value hvalue hown _ => absurd ?_ hown⟩
      have hentry := List.all_eq_true.mp h (key, value)
        (Std.ExtTreeMap.mem_toList_iff_getElem?_eq_some.mpr hvalue)
      exact List.contains_iff_mem.mp hentry
  · exact nomatch h

/-- A variable that is written over by the port of the global is not seen. -/
theorem restores_as_started_iff_port : ∃ manifest record,
    cacheStarted.manifests["0a1b2c3d4e5f__cache"]? = some manifest
      ∧ cacheStarted.globals["0a1b2c3d4e5f__cache"]? = some record
      ∧ RestoresAs plainTools (cacheCall 6379 none).files (cacheConfig [("PORT", "80")]) manifest
        record := by
  obtain ⟨manifest, record, hmanifest, hrecord⟩ := cacheStarted_stored
  have hreaches : ReachesStore freeHost plainTools (cacheCall 6379 none) "0a1b2c3d4e5f__cache"
      "cache" (cacheService 6379) (boot ⟨∅, []⟩ ∅) := ⟨_, _, _, rfl, rfl⟩
  refine ⟨manifest, record, hmanifest, hrecord, ?_⟩
  refine (restores_as_started_iff freeHost plainTools (cacheCall 6379 none) (boot ⟨∅, []⟩ ∅)
    (cacheConfig [("PORT", "80")]) rfl rfl (by decide) rfl hreaches rfl hmanifest hrecord).mpr
      (configUnseen_of_overwritten ?_)
  have hlayer : (cacheStarted.manifests["0a1b2c3d4e5f__cache"]?).all (fun m =>
      layerOverwritten (restoreGlobalArgs m (cacheConfig [("PORT", "80")]) (cacheService 6379))
        "cache" (cacheService 6379)) = true := by decide +kernel
  rw [hmanifest] at hlayer
  exact hlayer

/-- **A VARIABLE OF THE CONFIGURATION.**  The global was started without it and is
    restored with it. -/
theorem config_variable_restored : ∃ manifest record,
    cacheStarted.manifests["0a1b2c3d4e5f__cache"]? = some manifest
      ∧ cacheStarted.globals["0a1b2c3d4e5f__cache"]? = some record
      ∧ DevstackValidate.acceptConfig (cacheConfig [("REGION", "eu")]) = .ok ()
      ∧ ¬ RestoresAs plainTools (cacheCall 6379 none).files (cacheConfig [("REGION", "eu")])
        manifest record := by
  obtain ⟨manifest, record, hmanifest, hrecord⟩ := cacheStarted_stored
  refine ⟨manifest, record, hmanifest, hrecord, by decide +kernel, ?_⟩
  rintro ⟨restored, hrestored, henv, -⟩
  have hdiffer : (cacheEnvs [("REGION", "eu")]).all (fun envs => some envs.1 ≠ envs.2) = true := by
    decide +kernel
  have henvs : cacheEnvs [("REGION", "eu")]
      = some (record.service.launch.env, some restored.service.launch.env) := by
    rw [cacheEnvs, hmanifest, hrecord]
    dsimp only [Option.bind_eq_bind, Option.bind_some]
    rw [hrestored]
    rfl
  rw [henvs, henv] at hdiffer
  exact absurd hdiffer (by simp)

end DevstackRestoredGlobals
