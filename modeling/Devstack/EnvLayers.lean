import Devstack.Prepare

/-! # Env layers — how the files on disk reach a service's environment

    An environment is layered: the base environment, the configuration's env file and
    its variables, the service's env file, and over these what the service itself and
    its dependencies write.  Of two contents of the files, only the lower layers can
    tell; so a service is prepared alike from both exactly if the lower layers agree
    on every variable that is not written over. -/

namespace DevstackPrepare

open DevstackModel DevstackConfig DevstackLaunch DevstackExclusivity DevstackResources
  DevstackValidate DevstackLogFmt

/-! ## Entries written over a map -/

theorem extendEnv_cons (env : BTreeMap String) (entry : String × String)
    (entries : List (String × String)) :
    extendEnv env (entry :: entries) = extendEnv (env.insert entry.1 entry.2) entries := rfl

theorem extendEnv_append (env : BTreeMap String) (entries entries' : List (String × String)) :
    extendEnv env (entries ++ entries') = extendEnv (extendEnv env entries) entries' :=
  List.foldl_append

/-- A variable that no entry is about keeps its value. -/
theorem extendEnv_of_not_mem {key : String} {entries : List (String × String)}
    (h : key ∉ entries.map Prod.fst) (env : BTreeMap String) :
    (extendEnv env entries)[key]? = env[key]? := by
  induction entries generalizing env with
  | nil => rfl
  | cons entry entries ih =>
      rw [List.map_cons, List.mem_cons, not_or] at h
      rw [extendEnv_cons, ih h.2, Std.ExtTreeMap.getElem?_insert,
        if_neg (fun hcompare => h.1 (Std.LawfulEqOrd.eq_of_compare hcompare).symm)]

/-- A variable that an entry is about has a value that only the entries determine. -/
theorem extendEnv_of_mem {key : String} {entries : List (String × String)}
    (h : key ∈ entries.map Prod.fst) (env env' : BTreeMap String) :
    (extendEnv env entries)[key]? = (extendEnv env' entries)[key]? := by
  induction entries generalizing env env' with
  | nil => exact nomatch h
  | cons entry entries ih =>
      rw [extendEnv_cons, extendEnv_cons]
      by_cases hmem : key ∈ entries.map Prod.fst
      · exact ih hmem _ _
      · rw [extendEnv_of_not_mem hmem, extendEnv_of_not_mem hmem,
          Std.ExtTreeMap.getElem?_insert, Std.ExtTreeMap.getElem?_insert]
        obtain hkey | hkey := List.mem_cons.mp h
        · rw [if_pos (by rw [hkey]; exact Std.ReflCmp.compare_self),
            if_pos (by rw [hkey]; exact Std.ReflCmp.compare_self)]
        · exact absurd hkey hmem

/-! ## What is written over the env files -/

section Over

variable (tools : Tools) (args : PrepareArgs) (name : String) (svc : ServiceConfig)

/-- The entries of one dependency. -/
def depEntries (dep : String) : List (String × String) :=
  match args.portMap[dep]? with
  | some (some port) =>
      [(injectedKey .depPort dep, toString port),
        (injectedKey .depUrl dep, readinessUrl (args.serviceSchemes.getD dep "http") port)]
  | _ => []

/-- The entries of the dependencies and of the listen port. -/
def injectedEntries : List (String × String) :=
  svc.deps.flatMap (depEntries args)
    ++ ((args.listenPort name).map (fun port => (portEnv svc, toString port))).toList

/-- The variables that do not come from the env files. -/
def ownKeys : List String :=
  (injectedEntries args name svc).map Prod.fst ++ svc.env.keys ++ ["DEV_GRACE_MS"]

theorem injectDepEnv_eq (env : BTreeMap String) :
    injectDepEnv env svc args.portMap args.serviceSchemes
      = extendEnv env (svc.deps.flatMap (depEntries args)) := by
  rw [injectDepEnv]
  induction svc.deps generalizing env with
  | nil => rfl
  | cons dep deps ih =>
      rw [List.foldl_cons, ih, List.flatMap_cons, extendEnv_append]
      congr 1
      rw [injectDep, depEntries]
      cases args.portMap[dep]? with
      | none => rfl
      | some port => cases port <;> rfl

theorem overEnv_eq (renderedEnv env : BTreeMap String) :
    overEnv tools args name svc renderedEnv env
      = (resolveEnvMap tools.vars (extendEnv env
          (injectedEntries args name svc ++ renderedEnv.toList))).insert "DEV_GRACE_MS" "2000" := by
  rw [overEnv, injectDepEnv_eq, injectedEntries, extendEnv_append, extendEnv_append]
  cases args.listenPort name <;> rfl

variable {tools args name svc}

/-- Rendering keeps the names of the variables. -/
theorem renderEntries_mem {ctx : TemplateContext} {entries : List (String × String)}
    {out out' : BTreeMap String} (h : renderEntries tools ctx entries out = .ok out')
    (key : String) : key ∈ out' ↔ key ∈ out ∨ key ∈ entries.map Prod.fst := by
  induction entries generalizing out with
  | nil =>
      obtain rfl := Except.ok.inj h
      simp
  | cons entry entries ih =>
      obtain ⟨key', value⟩ := entry
      rw [renderEntries] at h
      obtain ⟨rendered, -, hrest⟩ := bind_ok.mp h
      rw [ih hrest, Std.ExtTreeMap.mem_insert, List.map_cons, List.mem_cons,
        Std.LawfulEqCmp.compare_eq_iff_eq, eq_comm (a := key'), or_assoc, or_left_comm]

theorem renderEnv_mem {ctx : TemplateContext} {env out : BTreeMap String}
    (h : renderEnv tools ctx env = .ok out) (key : String) : key ∈ out ↔ key ∈ env := by
  rw [renderEntries_mem h key]
  simp

theorem mem_ownKeys {renderedEnv : BTreeMap String}
    (h : renderEnv tools args.context svc.env = .ok renderedEnv) (key : String) :
    key ∈ ownKeys args name svc
      ↔ key ∈ (injectedEntries args name svc ++ renderedEnv.toList).map Prod.fst
        ∨ key = "DEV_GRACE_MS" := by
  have hkeys : key ∈ renderedEnv.toList.map Prod.fst ↔ key ∈ svc.env := by
    rw [Std.ExtTreeMap.map_fst_toList_eq_keys, Std.ExtTreeMap.mem_keys, renderEnv_mem h]
  rw [ownKeys, List.map_append, List.mem_append, List.mem_append, List.mem_append, hkeys,
    Std.ExtTreeMap.mem_keys, List.mem_singleton]

theorem getElem?_overEnv (renderedEnv env : BTreeMap String) (key : String) :
    (overEnv tools args name svc renderedEnv env)[key]?
      = if key = "DEV_GRACE_MS" then some "2000"
        else ((extendEnv env (injectedEntries args name svc ++ renderedEnv.toList))[key]?).map
          (resolveEnvVars tools.vars) := by
  rw [overEnv_eq, Std.ExtTreeMap.getElem?_insert, resolveEnvMap, Std.ExtTreeMap.getElem?_map]
  by_cases hkey : key = "DEV_GRACE_MS"
  · rw [if_pos hkey, if_pos (by rw [hkey]; exact Std.ReflCmp.compare_self)]
  · rw [if_neg hkey, if_neg (fun h => hkey (Std.LawfulEqOrd.eq_of_compare h).symm)]

/-- The environments of two lower layers agree exactly if the layers do, on the variables
    that are not written over. -/
theorem overEnv_eq_iff {renderedEnv : BTreeMap String}
    (h : renderEnv tools args.context svc.env = .ok renderedEnv) (env env' : BTreeMap String) :
    overEnv tools args name svc renderedEnv env = overEnv tools args name svc renderedEnv env'
      ↔ ∀ key, key ∉ ownKeys args name svc →
          (env[key]?).map (resolveEnvVars tools.vars)
            = (env'[key]?).map (resolveEnvVars tools.vars) := by
  constructor
  · intro hsame key hkey
    rw [mem_ownKeys h, not_or] at hkey
    have hget := congrArg (fun e : BTreeMap String => e[key]?) hsame
    rw [getElem?_overEnv, getElem?_overEnv, if_neg hkey.2, if_neg hkey.2,
      extendEnv_of_not_mem hkey.1, extendEnv_of_not_mem hkey.1] at hget
    exact hget
  · intro hsame
    ext key : 1
    rw [getElem?_overEnv, getElem?_overEnv]
    by_cases hgrace : key = "DEV_GRACE_MS"
    · rw [if_pos hgrace, if_pos hgrace]
    · rw [if_neg hgrace, if_neg hgrace]
      by_cases hkey : key ∈ (injectedEntries args name svc ++ renderedEnv.toList).map Prod.fst
      · rw [extendEnv_of_mem hkey env env']
      · rw [extendEnv_of_not_mem hkey, extendEnv_of_not_mem hkey]
        exact hsame key (fun hown => ((mem_ownKeys h key).mp hown).elim hkey hgrace)

end Over

/-! ## Two contents of the files -/

section Files

variable (tools : Tools) (args : PrepareArgs) (name : String) (svc : ServiceConfig)

/-- The layers of a service's environment up to its own env file. -/
def layeredEnv (files : Files) : Except String (BTreeMap String) := do
  let paths ← launchPaths tools args svc
  let under ← underEnv tools files args
  let fileEnv ← loadEnvFile tools files paths.2
  return mergeEnvFile under fileEnv

/-- The env files on two disks can be read, and agree on every variable that reaches the
    service's environment. -/
def EnvFilesAgree (files files' : Files) : Prop :=
  ∃ env env', layeredEnv tools args svc files = .ok env ∧ layeredEnv tools args svc files' = .ok env'
    ∧ ∀ key, key ∉ ownKeys args name svc →
        (env[key]?).map (resolveEnvVars tools.vars)
          = (env'[key]?).map (resolveEnvVars tools.vars)

variable {tools args name svc} {files files' : Files}

theorem launchEnv_ok {env : BTreeMap String} :
    launchEnv tools files args name svc = .ok env
      ↔ ∃ layered renderedEnv, layeredEnv tools args svc files = .ok layered
          ∧ renderEnv tools args.context svc.env = .ok renderedEnv
          ∧ overEnv tools args name svc renderedEnv layered = env := by
  simp only [launchEnv, layeredEnv, preparedEnv, bind_ok]
  constructor
  · rintro ⟨paths, hpaths, under, hunder, fileEnv, hfile, renderedEnv, hrendered, henv⟩
    exact ⟨_, renderedEnv, ⟨paths, hpaths, under, hunder, fileEnv, hfile, rfl⟩, hrendered,
      Except.ok.inj henv⟩
  · rintro ⟨layered, renderedEnv, ⟨paths, hpaths, under, hunder, fileEnv, hfile, hlayered⟩,
      hrendered, rfl⟩
    obtain rfl := Except.ok.inj hlayered
    exact ⟨paths, hpaths, under, hunder, fileEnv, hfile, renderedEnv, hrendered, rfl⟩

/-- Two disks give one environment exactly if their env files agree. -/
theorem launchEnv_iff {env : BTreeMap String} (h : launchEnv tools files args name svc = .ok env) :
    launchEnv tools files' args name svc = .ok env
      ↔ EnvFilesAgree tools args name svc files' files := by
  obtain ⟨layered, renderedEnv, hlayered, hrendered, rfl⟩ := launchEnv_ok.mp h
  constructor
  · intro h'
    obtain ⟨layered', renderedEnv', hlayered', hrendered', hover⟩ := launchEnv_ok.mp h'
    obtain rfl := Except.ok.inj (hrendered.symm.trans hrendered')
    exact ⟨layered', layered, hlayered', hlayered, (overEnv_eq_iff hrendered _ _).mp hover⟩
  · rintro ⟨layered', env, hlayered', henv, hsame⟩
    obtain rfl := Except.ok.inj (hlayered.symm.trans henv)
    exact launchEnv_ok.mpr ⟨layered', renderedEnv, hlayered', hrendered,
      (overEnv_eq_iff hrendered _ _).mpr hsame⟩

/-- Prepared from another disk, a service with the same environment differs in its hash
    alone. -/
theorem prepareService_again {prepared : PreparedService} {hash : String}
    (h : prepareService tools files args name svc = .ok prepared)
    (henv : launchEnv tools files' args name svc = .ok prepared.env)
    (hhash : tools.watchHash files' prepared.cwd (hashPatterns prepared.watchPatterns)
      prepared.ignorePatterns prepared.watchExtraFiles prepared.watchFingerprint = .ok hash) :
    prepareService tools files' args name svc = .ok { prepared with watchHash := hash } := by
  obtain ⟨envFilePath, hcarries⟩ := prepareService_ok.mp h
  have henv' : preparedEnv tools files' args name svc envFilePath = .ok prepared.env := by
    simp only [launchEnv, bind_ok] at henv
    obtain ⟨paths, hpaths, henv⟩ := henv
    obtain rfl := Except.ok.inj (hcarries.paths.symm.trans hpaths)
    exact henv
  rw [hcarries.extraFiles] at hhash
  exact prepareService_ok.mpr ⟨envFilePath,
    { hcarries with
      env := henv'
      hash := hhash }⟩

/-- And two preparations with the same environment do differ in nothing else. -/
theorem prepareService_same {prepared prepared' : PreparedService}
    (h : prepareService tools files args name svc = .ok prepared)
    (h' : prepareService tools files' args name svc = .ok prepared')
    (henv : prepared'.env = prepared.env) :
    prepared' = { prepared with watchHash := prepared'.watchHash }
      ∧ tools.watchHash files' prepared.cwd (hashPatterns prepared.watchPatterns)
        prepared.ignorePatterns prepared.watchExtraFiles prepared.watchFingerprint
          = .ok prepared'.watchHash := by
  obtain ⟨envFilePath, hcarries⟩ := prepareService_ok.mp h
  obtain ⟨envFilePath', hcarries'⟩ := prepareService_ok.mp h'
  obtain ⟨hcwd, rfl⟩ := Prod.mk.inj (Except.ok.inj (hcarries'.paths.symm.trans hcarries.paths))
  have hwatch := Except.ok.inj (hcarries'.watch.symm.trans hcarries.watch)
  have hignore := Except.ok.inj (hcarries'.ignore.symm.trans hcarries.ignore)
  have hpayload : payloadOf svc prepared' envFilePath' = payloadOf svc prepared envFilePath' := by
    rw [payloadOf, payloadOf, hcwd, hwatch, hignore, henv,
      Except.ok.inj (hcarries'.cmd.symm.trans hcarries.cmd),
      Except.ok.inj (hcarries'.readiness.symm.trans hcarries.readiness),
      hcarries'.port, hcarries.port, hcarries'.listenPort, hcarries.listenPort, hcarries'.scheme,
      hcarries.scheme, hcarries'.captureApi, hcarries.captureApi, hcarries'.captureApiBodyLimit,
      hcarries.captureApiBodyLimit, hcarries'.captureApiIgnore, hcarries.captureApiIgnore,
      hcarries'.deps, hcarries.deps]
  have hhash : tools.watchHash files' prepared.cwd (hashPatterns prepared.watchPatterns)
      prepared.ignorePatterns prepared.watchExtraFiles prepared.watchFingerprint
        = .ok prepared'.watchHash := by
    rw [← hcwd, ← hwatch, ← hignore, hcarries.extraFiles, hcarries.fingerprint, ← hpayload,
      ← hcarries'.fingerprint]
    exact hcarries'.hash
  have henv' : launchEnv tools files' args name svc = .ok prepared.env := by
    rw [← henv]
    exact hcarries'.launchEnv
  exact ⟨Except.ok.inj (h'.symm.trans (prepareService_again h henv' hhash)), hhash⟩

end Files

/-! ## Two sets of arguments -/

/-- The part of a service's configuration that its preparation reads. -/
def launchPart (svc : ServiceConfig) : ServiceConfig :=
  { svc with init := none, postInit := none, tasks := none }

theorem prepareService_launchPart (tools : Tools) (files : Files) (args : PrepareArgs)
    (name : String) (svc : ServiceConfig) :
    prepareService tools files args name (launchPart svc)
      = prepareService tools files args name svc := rfl

/-- Two sets of arguments that differ in the schemes of services without an entry in
    the port map. -/
structure SameInputs (args args' : PrepareArgs) : Prop where
  scope : args.scope = args'.scope
  projectDir : args.projectDir = args'.projectDir
  configDir : args.configDir = args'.configDir
  portMap : args.portMap = args'.portMap
  listenPortMap : args.listenPortMap = args'.listenPortMap
  schemes : ∀ name ∈ args.portMap,
    args.serviceSchemes.getD name "http" = args'.serviceSchemes.getD name "http"
  baseEnv : args.baseEnv = args'.baseEnv
  globalEnv : args.globalEnv = args'.globalEnv
  globalEnvFile : args.globalEnvFile = args'.globalEnvFile

section Inputs

variable {schemes schemes' : BTreeMap String}

theorem addEntry_schemes (listenPortMap : BTreeMap (Option Port))
    {entries : List (String × Option Port)}
    (h : ∀ entry ∈ entries, schemes.getD entry.1 "http" = schemes'.getD entry.1 "http")
    (services : BTreeMap ServiceEntry) :
    entries.foldl (addEntry listenPortMap schemes) services
      = entries.foldl (addEntry listenPortMap schemes') services := by
  induction entries generalizing services with
  | nil => rfl
  | cons entry entries ih =>
      have hentry : addEntry listenPortMap schemes services entry
          = addEntry listenPortMap schemes' services entry := by
        rw [addEntry, addEntry, h entry List.mem_cons_self]
      rw [List.foldl_cons, List.foldl_cons, hentry]
      exact ih (fun e he => h e (List.mem_cons_of_mem entry he)) _

theorem injectDepEnv_schemes {portMap : BTreeMap (Option Port)}
    (h : ∀ name ∈ portMap, schemes.getD name "http" = schemes'.getD name "http")
    (svc : ServiceConfig) (env : BTreeMap String) :
    injectDepEnv env svc portMap schemes = injectDepEnv env svc portMap schemes' := by
  have hdep : injectDep portMap schemes = injectDep portMap schemes' := by
    funext env dep
    rw [injectDep, injectDep]
    cases hport : portMap[dep]? with
    | none => rfl
    | some port =>
        cases port with
        | none => rfl
        | some port =>
            have hmem : dep ∈ portMap :=
              Std.ExtTreeMap.mem_iff_isSome_getElem?.mpr (by rw [hport]; rfl)
            dsimp only
            rw [h dep hmem]
  rw [injectDepEnv, injectDepEnv, hdep]

variable {tools : Tools} {files files' : Files} {args args' : PrepareArgs} {name : String}
  {svc : ServiceConfig}

theorem SameInputs.context (h : SameInputs args args') : args.context = args'.context := by
  have hmem : ∀ entry ∈ args.portMap.toList, entry.1 ∈ args.portMap := by
    intro entry hentry
    rw [Std.ExtTreeMap.mem_iff_isSome_getElem?,
      Std.ExtTreeMap.mem_toList_iff_getElem?_eq_some.mp hentry]
    rfl
  have hservices := addEntry_schemes args.listenPortMap
    (fun entry hentry => h.schemes entry.1 (hmem entry hentry)) ∅
  rw [h.portMap, h.listenPortMap] at hservices
  simp only [PrepareArgs.context, buildTemplateContext, h.portMap, h.listenPortMap, h.scope,
    h.projectDir, hservices]

/-- The same inputs prepare the same service. -/
theorem SameInputs.prepareService (h : SameInputs args args') :
    DevstackPrepare.prepareService tools files args name svc
      = DevstackPrepare.prepareService tools files args' name svc := by
  have hcontext := h.context
  have hdeps := fun svc env => injectDepEnv_schemes h.schemes svc env
  obtain ⟨hscope, hproject, hconfig, hports, hlisten, -, hbase, hglobal, hfile⟩ := h
  obtain ⟨scope, projectDir, configDir, portMap, listenPortMap, schemes, baseEnv, globalEnv,
    globalEnvFile⟩ := args
  obtain rfl := hscope
  obtain rfl := hproject
  obtain rfl := hconfig
  obtain rfl := hports
  obtain rfl := hlisten
  obtain rfl := hbase
  obtain rfl := hglobal
  obtain rfl := hfile
  simp only [DevstackPrepare.prepareService, preparedEnv, underEnv, overEnv, hcontext, hdeps]
  rfl

/-- Of the files, a service's environment only reads its env files. -/
theorem preparedEnv_files {envFilePath : String}
    (h : ∀ path ∈ envFilePath :: args.globalEnvFile.toList, files' path = files path) :
    preparedEnv tools files' args name svc envFilePath
      = preparedEnv tools files args name svc envFilePath := by
  have hload : ∀ path ∈ envFilePath :: args.globalEnvFile.toList,
      loadEnvFile tools files' path = loadEnvFile tools files path := by
    intro path hpath
    rw [loadEnvFile, loadEnvFile, h path hpath]
  have hunder : underEnv tools files' args = underEnv tools files args := by
    rw [underEnv, underEnv]
    cases hfile : args.globalEnvFile with
    | none => rfl
    | some path =>
        rw [hfile] at hload
        dsimp only
        rw [hload path (List.mem_cons_of_mem _ List.mem_cons_self)]
  rw [preparedEnv, preparedEnv, hunder, hload envFilePath List.mem_cons_self]

/-- Where the env files are as they were, the service is prepared as it was, but for
    its hash. -/
theorem prepareService_files {prepared : PreparedService} {hash : String}
    (h : DevstackPrepare.prepareService tools files args name svc = .ok prepared)
    (hfiles : ∀ path ∈ prepared.watchExtraFiles ++ args.globalEnvFile.toList,
      files' path = files path)
    (hhash : tools.watchHash files' prepared.cwd (hashPatterns prepared.watchPatterns)
      prepared.ignorePatterns prepared.watchExtraFiles prepared.watchFingerprint = .ok hash) :
    DevstackPrepare.prepareService tools files' args name svc
      = .ok { prepared with watchHash := hash } := by
  refine prepareService_again h ?_ hhash
  obtain ⟨envFilePath, hcarries⟩ := prepareService_ok.mp h
  rw [hcarries.extraFiles] at hfiles
  have henv := hcarries.env
  rw [← preparedEnv_files hfiles] at henv
  simp only [launchEnv, bind_ok]
  exact ⟨_, hcarries.paths, henv⟩

end Inputs

end DevstackPrepare
