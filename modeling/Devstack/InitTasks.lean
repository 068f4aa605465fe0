import Devstack.LogQuery
import Devstack.Prepare
import Devstack.Lib.Interleaving

/-! # Init tasks — the stored hash that lets a task be skipped

    `run_service_tasks` of `src/services/tasks/executor.rs`, for any number of calls at
    a time.  A task with a watch list is skipped if the hash of its watched files is the
    one stored for it; the hash is stored under the project and the task's name when a
    run of the task has ended well.  The configuration and the watched files are
    what the outside has at each step.

    * `content_of_bytes`: the hashed bytes tell the contents, where the walks found the
      same files;
    * `stored_step`: what a hash file holds was stored by the last completion under its name;
    * `skips_done_iff`: the skipped tasks were done exactly if that completion was of
      this project and task, with the same files, whenever the bytes are the same. -/

namespace DevstackInitTasks

open DevstackModel DevstackConfig DevstackExclusivity DevstackPrepare DevstackLogFmt
open DevstackMachine DevstackInterleaving
open DevstackLogQuery (trim)

-- ── watch.rs ──────────────────────────────────────────────────────────────────

/-- What the metadata and the contents of a file are. -/
structure FileState where
  modified : Option (Nat × Nat)
  contents : List UInt8
  small : contents.length < 256 ^ 8
  deriving DecidableEq

/-- A file the walk found, by its path under the root. -/
structure WatchedFile where
  display : String
  state : Except String FileState
  deriving DecidableEq

/-- `to_le_bytes` of an integer of `width` bytes. -/
def toLeBytes : Nat → Nat → List UInt8
  | 0, _ => []
  | width + 1, n => UInt8.ofNat (n % 256) :: toLeBytes width (n / 256)

/-- The time of change, in seconds and nanoseconds of the epoch. -/
def modifiedBytes : Option (Nat × Nat) → List UInt8
  | some (secs, nanos) => toLeBytes 8 secs ++ toLeBytes 4 nanos
  | none => []

/-- `hash_path_metadata`, as what it gives the hasher. -/
def hashPathMetadata (file : WatchedFile) : List UInt8 :=
  file.display.toUTF8.toList ++
    match file.state with
    | .ok state =>
        toLeBytes 8 state.contents.length ++ modifiedBytes state.modified ++ state.contents
    | .error err => "missing".toUTF8.toList ++ err.toUTF8.toList

def hashedBytes (fingerprint : List UInt8) (files : List WatchedFile) : List UInt8 :=
  "devstack-watch-v1".toUTF8.toList ++ fingerprint ++ files.flatMap hashPathMetadata

-- ── services/tasks/orchestration.rs ───────────────────────────────────────────

/-- The digests of `blake3` in hex digits, and where the data directory is. -/
structure Tools where
  blake3 : List UInt8 → String
  dataDir : Except String String

/-- Digests have no blanks; they are of one length and do not collide. -/
structure Digests (blake3 : List UInt8 → String) : Prop where
  hex : ∀ bytes, ∀ c ∈ (blake3 bytes).toList, isWhitespace c = false
  apart : ∀ bytes bytes', (blake3 bytes).toList <+: (blake3 bytes').toList → bytes = bytes'

/-- The bytes a task's watched files are hashed as. -/
def watchBytes (files : List WatchedFile) : List UInt8 :=
  hashedBytes "task-watch-v1".toUTF8.toList files

/-- `compute_watch_hash`, once the files are found. -/
def computeWatchHash (tools : Tools) (files : List WatchedFile) : String :=
  tools.blake3 (watchBytes files)

/-- The patterns of `build_overrides`; without one, every file is found. -/
def watchOverrides (watch : List String) : List String :=
  watch.filter (fun pattern => !pattern.toList.all isWhitespace)

/-- `project_hash`. -/
def projectHash (tools : Tools) (path : String) : String :=
  String.ofList ((tools.blake3 path.toUTF8.toList).toList.take 12)

/-- `task_hashes_dir`. -/
def taskHashesDir (tools : Tools) (projectDir : String) : Except String String := do
  let base ← tools.dataDir
  return joinPath (joinPath base "task-hashes") (projectHash tools projectDir)

/-- `task_hash_path`. -/
def taskHashPath (tools : Tools) (projectDir taskName : String) : Except String String := do
  validateNameForPathComponent "task" taskName
  return joinPath (← taskHashesDir tools projectDir) (taskName ++ ".sha256")

/-- `task_cmd_parts`. -/
def taskCmdParts : TaskConfig → String × Option String × BTreeMap String × Option String
  | .command cmd => (cmd, none, ∅, none)
  | .structured definition =>
      (definition.cmd, definition.cwd, definition.env, definition.envFile)

/-- `task_watch`. -/
def taskWatch : TaskConfig → List String
  | .command _ => []
  | .structured definition => definition.watch

/-- `task_cwd`. -/
def taskCwd (task : TaskConfig) (projectDir : String) : String :=
  match task with
  | .command _ => projectDir
  | .structured definition =>
      match definition.cwd with
      | some path => joinPath projectDir path
      | none => projectDir

/-- `resolve_service_tasks`: a service's own tasks come before the global ones. -/
def resolveServiceTasks (service : ServiceConfig) (globalTasks : BTreeMap TaskConfig) :
    BTreeMap TaskConfig :=
  match service.tasks with
  | some tasks => tasks.toList.foldl (fun tasks entry => tasks.insert entry.1 entry.2) globalTasks
  | none => globalTasks

-- ── services/tasks/executor.rs ────────────────────────────────────────────────

/-- A task that has run to its end, with the files whose hash was then stored. -/
structure Completion where
  projectDir : String
  task : TaskConfig
  files : List WatchedFile
  deriving DecidableEq

/-- The hash files by their paths, and, for the statements, the completions that wrote
    them. -/
structure World where
  hashes : BTreeMap String
  completed : BTreeMap Completion
  outcomes : List (Except String Unit)

inductive Phase where
  | init | postInit
  deriving DecidableEq

def Phase.name : Phase → String
  | .init => "init"
  | .postInit => "post_init"

/-- `run_init_tasks` skips, `run_post_init_tasks` does not. -/
def Phase.skipIfUnchanged : Phase → Bool
  | .init => true
  | .postInit => false

/-- A call of `run_service_tasks` by the launch of a service, or by `devstack run`,
    which takes the global tasks alone. -/
structure Call where
  phase : Phase
  ofService : Bool
  projectDir : String
  deriving DecidableEq

/-- The rest of the loop over the task names. -/
structure TaskRun where
  phase : Phase
  tasks : BTreeMap TaskConfig
  projectDir : String
  taskNames : List String
  deriving DecidableEq

/-- Where a call stands.  The hash that is compared and stored is that of `files`. -/
inductive Worker where
  | called (call : Call)
  | looping (run : TaskRun)
  | comparing (run : TaskRun) (name : String) (task : TaskConfig) (files : List WatchedFile)
  | running (run : TaskRun) (name : String) (task : TaskConfig)
      (files : Option (List WatchedFile))
  | storing (run : TaskRun) (name : String) (task : TaskConfig) (files : List WatchedFile)
  deriving DecidableEq

/-- How a write of a hash file ends; one that fails may leave a part of the text. -/
inductive HashWrite where
  | written
  | noDirectory (err : String)
  | failed (err : String) (kept : Nat)

/-- What the outside answers at a step: the configuration, the files that a walk finds,
    whether the hash file can be read, the exit code of the task, the write. -/
structure Env where
  globalTasks : BTreeMap TaskConfig
  service : ServiceConfig
  walk : String → List String → Except String (List WatchedFile)
  readable : Except String Unit
  result : Except String Int
  write : HashWrite

section Step

variable (tools : Tools)

/-- `load_stored_hash`. -/
def loadStoredHash (readable : Except String Unit) (hashes : BTreeMap String)
    (projectDir taskName : String) : Except String (Option String) := do
  let path ← taskHashPath tools projectDir taskName
  match hashes[path]? with
  | none => return none
  | some value =>
      match readable with
      | .error err => .error s!"read task hash {path}: {err}"
      | .ok () => return some (trim value)

/-- What a write that failed leaves of a text: less than all of it. -/
def torn (text : String) (kept : Nat) : String :=
  String.ofList (text.toList.take (min kept (text.toList.length - 1)))

/-- `store_hash`, of the hash of the files of a completion. -/
def storeHash (write : HashWrite) (taskName : String) (completion : Completion) (w : World) :
    Except String Unit × World :=
  let hash := computeWatchHash tools completion.files
  match write with
  | .noDirectory err => (.error err, w)
  | .written =>
      match taskHashPath tools completion.projectDir taskName with
      | .error err => (.error err, w)
      | .ok path =>
          (.ok (), { w with
            hashes := w.hashes.insert path hash
            completed := w.completed.insert path completion })
  | .failed err kept =>
      match taskHashPath tools completion.projectDir taskName with
      | .error err => (.error err, w)
      | .ok path =>
          (.error s!"write task hash {path}: {err}", { w with
            hashes := w.hashes.insert path (torn hash kept)
            completed := w.completed.erase path })

/-- A call that ends. -/
def ends (w : World) (outcome : Except String Unit) : World × List Worker :=
  ({ w with outcomes := w.outcomes ++ [outcome] }, [])

/-- `run_service_tasks` from one effect to the next. -/
def workerStep (env : Env) (w : World) : Worker → World × List Worker
  | .called call =>
      let names := match call.phase with
        | .init => env.service.init
        | .postInit => env.service.postInit
      let tasks :=
        if call.ofService then resolveServiceTasks env.service env.globalTasks
        else env.globalTasks
      (w, [.looping ⟨call.phase, tasks, call.projectDir, names.getD []⟩])
  | .looping run =>
      match run.taskNames with
      | [] => ends w (.ok ())
      | name :: rest =>
          let run := { run with taskNames := rest }
          match run.tasks[name]? with
          | none => ends w (.error s!"unknown {run.phase.name} task '{name}'")
          | some task =>
              if run.phase.skipIfUnchanged && !(taskWatch task).isEmpty then
                match env.walk (taskCwd task run.projectDir) (watchOverrides (taskWatch task)) with
                | .error err => ends w (.error err)
                | .ok files => (w, [.comparing run name task files])
              else (w, [.running run name task none])
  | .comparing run name task files =>
      match loadStoredHash tools env.readable w.hashes run.projectDir name with
      | .error err => ends w (.error err)
      | .ok stored =>
          if stored = some (computeWatchHash tools files) then (w, [.looping run])
          else (w, [.running run name task (some files)])
  | .running run name task files =>
      match env.result with
      | .error err => ends w (.error err)
      | .ok exitCode =>
          if exitCode ≠ 0 then
            ends w (.error
              s!"{run.phase.name} task '{name}' failed with exit code {exitCode}")
          else
            match files with
            | none => (w, [.looping run])
            | some files => (w, [.storing run name task files])
  | .storing run name task files =>
      match storeHash tools env.write name ⟨run.projectDir, task, files⟩ w with
      | (.error err, w) => ends w (.error err)
      | (.ok (), w) => (w, [.looping run])

abbrev System := World × List Worker

/-- Calls that are made, or will be; no hash is stored yet. -/
def calls (calls : List Call) : System := (⟨∅, ∅, []⟩, calls.map .called)

def step (s : System) (a : Nat × Env) : System := stepAt (workerStep tools) s a

/-! ## Skipped and done -/

/-- The command, working directory, environment and watch list of a task. -/
def definitionOf (task : TaskConfig) :
    String × Option String × BTreeMap String × List String :=
  ((taskCmdParts task).1, (taskCmdParts task).2.1, (taskCmdParts task).2.2.1, taskWatch task)

/-- What a watched file holds; of the time of its change only whether it is known. -/
def WatchedFile.content (file : WatchedFile) : String × Except String (Bool × List UInt8) :=
  (file.display, file.state.map (fun state => (state.modified.isSome, state.contents)))

/-- The same without the contents. -/
def WatchedFile.outline (file : WatchedFile) : String × Except String Bool :=
  (file.display, file.state.map (fun state => state.modified.isSome))

/-- The hash stored for a task is that of a completion of the same definition, in the
    same project, with the same contents of its watched files. -/
def DoneBefore (w : World) (projectDir name : String) (task : TaskConfig)
    (files : List WatchedFile) : Prop :=
  ∃ path completion, taskHashPath tools projectDir name = .ok path
    ∧ w.completed[path]? = some completion
    ∧ w.hashes[path]? = some (computeWatchHash tools completion.files)
    ∧ completion.projectDir = projectDir
    ∧ definitionOf completion.task = definitionOf task
    ∧ completion.files.map WatchedFile.content = files.map WatchedFile.content

/-- What the claim asks of one step: a task that it skips was done before. -/
def SkipsDone (s : System) (a : Nat × Env) : Prop :=
  ∀ run name task files, s.2[a.1]? = some (.comparing run name task files) →
    (workerStep tools a.2 s.1 (.comparing run name task files)).2 = [.looping run] →
    DoneBefore tools s.1 run.projectDir name task files

/-- The condition on a step: where a task is compared, the completion behind its hash
    file, if its files made the same bytes, was of the same definition, in the same
    project, with the same files to watch. -/
def ComparedAlike (s : System) (a : Nat × Env) : Prop :=
  ∀ run name task files path completion,
    s.2[a.1]? = some (.comparing run name task files) → a.2.readable = .ok () →
    taskHashPath tools run.projectDir name = .ok path →
    s.1.completed[path]? = some completion →
    watchBytes completion.files = watchBytes files →
    completion.projectDir = run.projectDir
      ∧ definitionOf completion.task = definitionOf task
      ∧ completion.files.map WatchedFile.outline = files.map WatchedFile.outline

end Step

/-! ## The bytes tell the contents -/

@[simp] theorem toLeBytes_length (width n : Nat) : (toLeBytes width n).length = width := by
  induction width generalizing n with
  | zero => rfl
  | succ width ih => rw [toLeBytes, List.length_cons, ih]

theorem toLeBytes_inj {width n m : Nat} (hn : n < 256 ^ width) (hm : m < 256 ^ width)
    (h : toLeBytes width n = toLeBytes width m) : n = m := by
  induction width generalizing n m with
  | zero =>
      rw [Nat.pow_zero] at hn hm
      omega
  | succ width ih =>
      obtain ⟨hbyte, hrest⟩ := List.cons.inj h
      have hdiv : n / 256 = m / 256 :=
        ih (Nat.div_lt_of_lt_mul (by rwa [Nat.pow_succ'] at hn))
          (Nat.div_lt_of_lt_mul (by rwa [Nat.pow_succ'] at hm)) hrest
      have hmod : n % 256 = m % 256 := by
        have := congrArg UInt8.toNat hbyte
        simpa using this
      omega

theorem modifiedBytes_length {modified modified' : Option (Nat × Nat)}
    (h : modified.isSome = modified'.isSome) :
    (modifiedBytes modified).length = (modifiedBytes modified').length := by
  cases modified with
  | none => cases modified' with
    | none => rfl
    | some _ => exact nomatch h
  | some _ => cases modified' with
    | none => exact nomatch h
    | some _ => simp [modifiedBytes]

/-- Of two files with one outline, the bytes in front of a text tell the contents. -/
theorem content_of_append {file file' : WatchedFile} {rest rest' : List UInt8}
    (houtline : file.outline = file'.outline)
    (hbytes : hashPathMetadata file ++ rest = hashPathMetadata file' ++ rest') :
    file.content = file'.content ∧ rest = rest' := by
  obtain ⟨display, state⟩ := file
  obtain ⟨display', state'⟩ := file'
  obtain ⟨hdisplay, hstate⟩ := Prod.mk.inj houtline
  dsimp only at hdisplay
  subst hdisplay
  rw [hashPathMetadata, hashPathMetadata, List.append_assoc, List.append_assoc] at hbytes
  have hbytes := List.append_cancel_left hbytes
  cases state with
  | error err =>
      cases state' with
      | ok _ => exact nomatch hstate
      | error err' =>
          obtain rfl := Except.error.inj hstate
          exact ⟨rfl, List.append_cancel_left hbytes⟩
  | ok st =>
      cases state' with
      | error _ => exact nomatch hstate
      | ok st' =>
          have htimed : st.modified.isSome = st'.modified.isSome := Except.ok.inj hstate
          simp only [List.append_assoc] at hbytes
          obtain ⟨hlen, hbytes⟩ := List.append_inj hbytes (by simp)
          have hlen := toLeBytes_inj st.small st'.small hlen
          obtain ⟨-, hbytes⟩ := List.append_inj hbytes (modifiedBytes_length htimed)
          obtain ⟨hcontents, hrest⟩ := List.append_inj hbytes hlen
          refine ⟨?_, hrest⟩
          show (display, Except.ok (st.modified.isSome, st.contents)) = (display, _)
          rw [htimed, hcontents]
          rfl

/-- Files of the same outlines that are hashed as the same bytes have the same contents. -/
theorem content_of_bytes {files files' : List WatchedFile}
    (houtline : files.map WatchedFile.outline = files'.map WatchedFile.outline)
    (hbytes : watchBytes files = watchBytes files') :
    files.map WatchedFile.content = files'.map WatchedFile.content := by
  rw [watchBytes, watchBytes, hashedBytes, hashedBytes] at hbytes
  replace hbytes := List.append_cancel_left hbytes
  induction files generalizing files' with
  | nil =>
      rw [List.map_nil, eq_comm, List.map_eq_nil_iff] at houtline
      rw [houtline]
  | cons file files ih =>
      cases files' with
      | nil => exact nomatch houtline
      | cons file' files' =>
          obtain ⟨hfile, hfiles⟩ := List.cons.inj houtline
          rw [List.flatMap_cons, List.flatMap_cons] at hbytes
          obtain ⟨hcontent, hbytes⟩ := content_of_append hfile hbytes
          rw [List.map_cons, List.map_cons, hcontent, ih hfiles hbytes]

/-- The outlines are a part of the contents. -/
theorem outline_of_content {files files' : List WatchedFile}
    (h : files.map WatchedFile.content = files'.map WatchedFile.content) :
    files.map WatchedFile.outline = files'.map WatchedFile.outline := by
  have houtline : ∀ file : WatchedFile,
      file.outline = (file.content.1, file.content.2.map Prod.fst) := by
    rintro ⟨display, _ | _⟩ <;> rfl
  calc files.map WatchedFile.outline
      = (files.map WatchedFile.content).map (fun c => (c.1, c.2.map Prod.fst)) := by
        rw [List.map_map]
        exact List.map_congr_left (fun file _ => houtline file)
    _ = (files'.map WatchedFile.content).map (fun c => (c.1, c.2.map Prod.fst)) := by rw [h]
    _ = files'.map WatchedFile.outline := by
        rw [List.map_map]
        exact (List.map_congr_left (fun file _ => houtline file)).symm

/-! ## What a hash file holds -/

/-- A hash file holds the hash of the completion that wrote it last, or a torn text. -/
def Stored (tools : Tools) (w : World) : Prop :=
  ∀ path : String, (∃ completion : Completion, w.completed[path]? = some completion
      ∧ w.hashes[path]? = some (computeWatchHash tools completion.files))
    ∨ w.completed[path]? = none ∧ ∀ text, w.hashes[path]? = some text →
      ∃ files kept, text = torn (computeWatchHash tools files) kept

theorem trim_of_hex {text : String} (h : ∀ c ∈ text.toList, isWhitespace c = false) :
    trim text = text := by
  have hleft : text.toList.dropWhile isWhitespace = text.toList := by
    cases htext : text.toList with
    | nil => rfl
    | cons c cs =>
        rw [List.dropWhile_cons_of_neg]
        rw [h c (by rw [htext]; exact List.mem_cons_self)]
        exact Bool.false_ne_true
  have hright : text.toList.rdropWhile isWhitespace = text.toList := by
    rw [List.rdropWhile_eq_self_iff]
    intro hne
    rw [h _ (List.getLast_mem hne)]
    exact Bool.false_ne_true
  rw [trim, hleft, hright, String.ofList_toList]

section Run

variable {tools : Tools}

theorem trim_hash (digests : Digests tools.blake3) (files : List WatchedFile) :
    trim (computeWatchHash tools files) = computeWatchHash tools files :=
  trim_of_hex (digests.hex (watchBytes files))

/-- Two hashes are one only if they are of the same bytes. -/
theorem hash_inj (digests : Digests tools.blake3) {files files' : List WatchedFile}
    (h : computeWatchHash tools files = computeWatchHash tools files') :
    watchBytes files = watchBytes files' :=
  digests.apart _ _ ((congrArg String.toList h) ▸ List.prefix_rfl)

/-- A torn text is no hash. -/
theorem torn_ne_hash (digests : Digests tools.blake3) (files files' : List WatchedFile)
    (kept : Nat) : trim (torn (computeWatchHash tools files) kept) ≠ computeWatchHash tools files' := by
  have htake : ∀ c ∈ (torn (computeWatchHash tools files) kept).toList, isWhitespace c = false := by
    intro c hc
    rw [torn, String.toList_ofList] at hc
    exact digests.hex _ c (List.mem_of_mem_take hc)
  rw [trim_of_hex htake]
  intro h
  have hpart : (computeWatchHash tools files').toList <+: (computeWatchHash tools files).toList := by
    rw [← h, torn, String.toList_ofList]
    exact List.take_prefix _ _
  have hsame : computeWatchHash tools files' = computeWatchHash tools files :=
    congrArg tools.blake3 (digests.apart _ _ hpart)
  have hlen := congrArg (fun text : String => text.toList.length) h
  have hpos : (computeWatchHash tools files).toList.length ≠ 0 := by
    intro hzero
    have hnil := List.length_eq_zero_iff.mp hzero
    have := digests.apart (watchBytes files) (0 :: watchBytes files) (by
      rw [computeWatchHash] at hnil
      rw [hnil]
      exact List.nil_prefix)
    exact absurd (congrArg List.length this) (by simp)
  rw [hsame] at hlen
  simp only [torn, String.toList_ofList, List.length_take] at hlen
  omega

/-- A write leaves the whole hash of its completion in the file, or a torn text. -/
theorem stored_storeHash {w : World} (hstored : Stored tools w) (write : HashWrite)
    (taskName : String) (completion : Completion) :
    Stored tools (storeHash tools write taskName completion w).2 := by
  cases write with
  | noDirectory err => exact hstored
  | written =>
      rw [storeHash]
      cases taskHashPath tools completion.projectDir taskName with
      | error err => exact hstored
      | ok path =>
          intro path'
          dsimp only
          rw [Std.ExtTreeMap.getElem?_insert, Std.ExtTreeMap.getElem?_insert]
          by_cases heq : compare path path' = .eq
          · rw [if_pos heq, if_pos heq]
            exact Or.inl ⟨completion, rfl, rfl⟩
          · rw [if_neg heq, if_neg heq]
            exact hstored path'
  | failed err kept =>
      rw [storeHash]
      cases taskHashPath tools completion.projectDir taskName with
      | error err => exact hstored
      | ok path =>
          intro path'
          dsimp only
          rw [Std.ExtTreeMap.getElem?_insert, Std.ExtTreeMap.getElem?_erase]
          by_cases heq : compare path path' = .eq
          · rw [if_pos heq, if_pos heq]
            refine Or.inr ⟨rfl, fun text htext => ?_⟩
            exact ⟨completion.files, kept, (Option.some.inj htext).symm⟩
          · rw [if_neg heq, if_neg heq]
            exact hstored path'

/-- Only a call that stores a hash changes the hash files. -/
theorem stored_workerStep {w : World} (hstored : Stored tools w) (env : Env) (worker : Worker) :
    Stored tools (workerStep tools env w worker).1 := by
  cases worker with
  | called call => exact hstored
  | looping run =>
      simp only [workerStep]
      split
      · exact hstored
      · split
        · exact hstored
        · split
          · split <;> exact hstored
          · exact hstored
  | comparing run name task files =>
      rw [workerStep]
      split
      · exact hstored
      · split <;> exact hstored
  | running run name task files =>
      simp only [workerStep]
      split
      · exact hstored
      · split
        · exact hstored
        · split <;> exact hstored
  | storing run name task files =>
      have hwrite := stored_storeHash hstored env.write name ⟨run.projectDir, task, files⟩
      rw [workerStep]
      split
      · next heq =>
          rw [heq] at hwrite
          exact hwrite
      · next heq =>
          rw [heq] at hwrite
          exact hwrite

theorem stored_step {s : System} (hstored : Stored tools s.1) (a : Nat × Env) :
    Stored tools (step tools s a).1 := by
  rw [step]
  cases hget : s.2[a.1]? with
  | none =>
      rw [stepAt_none _ hget]
      exact hstored
  | some worker =>
      rw [stepAt_some _ hget]
      exact stored_workerStep hstored a.2 worker

theorem stored_calls (made : List Call) : Stored tools (calls made).1 :=
  fun _ => Or.inr ⟨Std.ExtTreeMap.getElem?_empty, fun _ h =>
    nomatch Std.ExtTreeMap.getElem?_empty.symm.trans h⟩

/-! ## A task is skipped only where it was done -/

/-- What `load_stored_hash` finds. -/
theorem loadStoredHash_some {readable : Except String Unit} {hashes : BTreeMap String}
    {projectDir taskName text : String} :
    loadStoredHash tools readable hashes projectDir taskName = .ok (some text)
      ↔ readable = .ok () ∧ ∃ path value, taskHashPath tools projectDir taskName = .ok path
        ∧ hashes[path]? = some value ∧ trim value = text := by
  rw [loadStoredHash]
  cases hpath : taskHashPath tools projectDir taskName with
  | error err =>
      constructor
      · intro h
        exact nomatch h
      · rintro ⟨-, _, _, h, -⟩
        exact nomatch h
  | ok path =>
      change (match hashes[path]? with | none => _ | some value => _) = _ ↔ _
      cases hvalue : hashes[path]? with
      | none =>
          constructor
          · intro h
            exact nomatch (Except.ok.inj h)
          · rintro ⟨-, _, _, hpath', hvalue', -⟩
            rw [← Except.ok.inj hpath', hvalue] at hvalue'
            exact nomatch hvalue'
      | some value =>
          cases readable with
          | error err =>
              constructor
              · intro h
                exact nomatch h
              · intro h
                exact nomatch h.1
          | ok _ =>
              constructor
              · intro h
                exact ⟨rfl, path, value, rfl, hvalue, Option.some.inj (Except.ok.inj h)⟩
              · rintro ⟨-, _, _, hpath', hvalue', rfl⟩
                rw [← Except.ok.inj hpath', hvalue] at hvalue'
                rw [← Option.some.inj hvalue']
                rfl

theorem comparing_skips {env : Env} {w : World} {run : TaskRun} {name : String}
    {task : TaskConfig} {files : List WatchedFile} :
    (workerStep tools env w (.comparing run name task files)).2 = [.looping run]
      ↔ loadStoredHash tools env.readable w.hashes run.projectDir name
        = .ok (some (computeWatchHash tools files)) := by
  rw [workerStep]
  cases loadStoredHash tools env.readable w.hashes run.projectDir name with
  | error err =>
      constructor
      · intro h
        exact nomatch h
      · intro h
        exact nomatch h
  | ok stored =>
      dsimp only
      split
      · next heq => exact ⟨fun _ => by rw [heq], fun _ => rfl⟩
      · next hne =>
          constructor
          · intro h
            exact nomatch (List.cons.inj h).1
          · intro h
            exact absurd (Except.ok.inj h) hne

/-- The text in a hash file is the hash of some files exactly if the completion behind
    it was hashed as the same bytes. -/
theorem stored_eq_hash (digests : Digests tools.blake3) {w : World} (hstored : Stored tools w)
    (path : String) (files : List WatchedFile) :
    (∃ value, w.hashes[path]? = some value ∧ trim value = computeWatchHash tools files)
      ↔ ∃ completion : Completion, w.completed[path]? = some completion
        ∧ w.hashes[path]? = some (computeWatchHash tools completion.files)
        ∧ watchBytes completion.files = watchBytes files := by
  constructor
  · rintro ⟨value, hvalue, htrim⟩
    obtain ⟨completion, hcompleted, hhash⟩ | ⟨-, htorn⟩ := hstored path
    · obtain rfl := Option.some.inj (hhash.symm.trans hvalue)
      rw [trim_hash digests] at htrim
      exact ⟨completion, hcompleted, hhash, hash_inj digests htrim⟩
    · obtain ⟨files', kept, rfl⟩ := htorn value hvalue
      exact absurd htrim (torn_ne_hash digests files' files kept)
  · rintro ⟨completion, -, hhash, hbytes⟩
    refine ⟨_, hhash, ?_⟩
    rw [trim_hash digests, computeWatchHash, hbytes, computeWatchHash]

theorem skipsDone_iff (digests : Digests tools.blake3) {s : System} (hstored : Stored tools s.1)
    (a : Nat × Env) : SkipsDone tools s a ↔ ComparedAlike tools s a := by
  constructor
  · intro hdone run name task files path completion hget hreadable hpath hcompleted hbytes
    have hhash : s.1.hashes[path]? = some (computeWatchHash tools completion.files) := by
      obtain ⟨completion', hcompleted', hhash⟩ | ⟨hnone, -⟩ := hstored path
      · obtain rfl := Option.some.inj (hcompleted'.symm.trans hcompleted)
        exact hhash
      · exact nomatch hnone.symm.trans hcompleted
    obtain ⟨value, hvalue, htrim⟩ := (stored_eq_hash digests hstored path files).mpr
      ⟨completion, hcompleted, hhash, hbytes⟩
    obtain ⟨path', completion', hpath', hcompleted', -, hproject, hdefinition, hcontent⟩ :=
      hdone run name task files hget (comparing_skips.mpr
        (loadStoredHash_some.mpr ⟨hreadable, path, value, hpath, hvalue, htrim⟩))
    obtain rfl := Except.ok.inj (hpath.symm.trans hpath')
    obtain rfl := Option.some.inj (hcompleted.symm.trans hcompleted')
    exact ⟨hproject, hdefinition, outline_of_content hcontent⟩
  · intro halike run name task files hget hskips
    obtain ⟨hreadable, path, value, hpath, hvalue, htrim⟩ :=
      loadStoredHash_some.mp (comparing_skips.mp hskips)
    obtain ⟨completion, hcompleted, hhash, hbytes⟩ :=
      (stored_eq_hash digests hstored path files).mp ⟨value, hvalue, htrim⟩
    obtain ⟨hproject, hdefinition, houtline⟩ :=
      halike run name task files path completion hget hreadable hpath hcompleted hbytes
    exact ⟨path, completion, hpath, hcompleted, hhash, hproject, hdefinition,
      content_of_bytes houtline hbytes⟩

/-- In every run, the init tasks that are skipped were done in this form exactly if
    every task that is compared finds a completion of its own form, or other bytes. -/
theorem skips_done_iff (digests : Digests tools.blake3) (made : List Call)
    (as : List (Nat × Env)) :
    Along (step tools) (SkipsDone tools) (calls made) as
      ↔ Along (step tools) (ComparedAlike tools) (calls made) as :=
  @along_congr System (Nat × Env) (step tools) (fun s => Stored tools s.1)
    (SkipsDone tools) (ComparedAlike tools)
    (fun _ a hstored => skipsDone_iff digests hstored a)
    (fun _ a hstored _ => stored_step hstored a) as (calls made) (stored_calls made)

end Run

/-! ## A task that was changed, and skipped -/

def hexDigit (n : Nat) : Char := "0123456789abcdef".toList.getD n '0'

/-- Digests in hex digits that say their end. -/
def plainDigits : List UInt8 → List Char
  | [] => ['0']
  | byte :: bytes =>
      'f' :: hexDigit (byte.toNat / 16) :: hexDigit (byte.toNat % 16) :: plainDigits bytes

def plainTools : Tools where
  blake3 := fun bytes => String.ofList (plainDigits bytes)
  dataDir := .ok "/data"

theorem hexDigit_inj : ∀ n < 16, ∀ m < 16, hexDigit n = hexDigit m → n = m := by decide

theorem hexDigit_black : ∀ n < 16, isWhitespace (hexDigit n) = false := by decide

theorem plainDigits_black (bytes : List UInt8) : ∀ c ∈ plainDigits bytes, isWhitespace c = false := by
  induction bytes with
  | nil => exact List.forall_mem_singleton.mpr rfl
  | cons byte bytes ih =>
      have hlt : byte.toNat < 256 := byte.toNat_lt
      intro c hc
      rw [plainDigits, List.mem_cons, List.mem_cons, List.mem_cons] at hc
      rcases hc with rfl | rfl | rfl | hc
      · decide
      · exact hexDigit_black _ (by omega)
      · exact hexDigit_black _ (by omega)
      · exact ih c hc

theorem plainDigits_apart (bytes bytes' : List UInt8)
    (h : plainDigits bytes <+: plainDigits bytes') : bytes = bytes' := by
  induction bytes generalizing bytes' with
  | nil =>
      cases bytes' with
      | nil => rfl
      | cons byte' bytes' => exact absurd (List.cons_prefix_cons.mp h).1 (by decide)
  | cons byte bytes ih =>
      cases bytes' with
      | nil => exact absurd (List.cons_prefix_cons.mp h).1 (by decide)
      | cons byte' bytes' =>
          have hlt : byte.toNat < 256 := byte.toNat_lt
          have hlt' : byte'.toNat < 256 := byte'.toNat_lt
          obtain ⟨-, h⟩ := List.cons_prefix_cons.mp h
          obtain ⟨hhigh, h⟩ := List.cons_prefix_cons.mp h
          obtain ⟨hlow, h⟩ := List.cons_prefix_cons.mp h
          have hhigh := hexDigit_inj _ (by omega) _ (by omega) hhigh
          have hlow := hexDigit_inj _ (by omega) _ (by omega) hlow
          have hbyte : byte = byte' := UInt8.toNat_inj.mp (by omega)
          rw [hbyte, ih bytes' h]

theorem plainTools_digests : Digests plainTools.blake3 where
  hex := fun bytes c hc => by
    rw [plainTools, String.toList_ofList] at hc
    exact plainDigits_black bytes c hc
  apart := fun bytes bytes' h => by
    rw [plainTools, String.toList_ofList, String.toList_ofList] at h
    exact plainDigits_apart bytes bytes' h

def migrate (cmd : String) : TaskConfig :=
  .structured { cmd, cwd := none, watch := ["*.sql"], env := ∅, envFile := none }

def schema : WatchedFile := ⟨"schema.sql", .ok ⟨some (1700000000, 0), [115], by decide⟩⟩

/-- A service whose own `migrate` runs before it; the walk finds one file. -/
def migrating (cmd : String) : Env where
  globalTasks := ∅
  service := { ServiceConfig.ofCmd "serve" [] with
    init := some ["migrate"]
    tasks := some ((∅ : BTreeMap TaskConfig).insert "migrate" (migrate cmd)) }
  walk := fun _ _ => .ok [schema]
  readable := .ok ()
  result := .ok 0
  write := .written

def launchCall : Call := ⟨.init, true, "/app"⟩

/-- The service has migrated, and is launched again: its task is compared. -/
def migratedTwice : List (Nat × Env) := List.replicate 8 (0, migrating "migrate-api")

theorem skips_done_iff_twice :
    (Along (step plainTools) (SkipsDone plainTools) (calls [launchCall, launchCall])
        (migratedTwice ++ [(0, migrating "migrate-api")])
      ↔ Along (step plainTools) (ComparedAlike plainTools) (calls [launchCall, launchCall])
        (migratedTwice ++ [(0, migrating "migrate-api")]))
    -- the last step skips it
    ∧ (run (step plainTools) (calls [launchCall, launchCall]) migratedTwice).2 = [.comparing
        ⟨.init, (∅ : BTreeMap TaskConfig).insert "migrate" (migrate "migrate-api"), "/app", []⟩
        "migrate" (migrate "migrate-api") [schema]]
    ∧ (run (step plainTools) (calls [launchCall, launchCall])
        (migratedTwice ++ [(0, migrating "migrate-api")])).2 = [.looping
        ⟨.init, (∅ : BTreeMap TaskConfig).insert "migrate" (migrate "migrate-api"), "/app", []⟩] :=
  ⟨skips_done_iff plainTools_digests [launchCall, launchCall]
    (migratedTwice ++ [(0, migrating "migrate-api")]), by decide +kernel, by decide +kernel⟩

/-- One service has migrated; another comes to compare its own task of that name. -/
def secondMigration : System :=
  run (step plainTools) (calls [launchCall, launchCall])
    (List.replicate 6 (0, migrating "migrate-api") ++ List.replicate 2 (0, migrating "migrate-web"))

theorem other_service_skipped :
    ¬ Along (step plainTools) (SkipsDone plainTools) (calls [launchCall, launchCall])
      (List.replicate 6 (0, migrating "migrate-api")
        ++ List.replicate 2 (0, migrating "migrate-web") ++ [(0, migrating "migrate-web")]) := by
  intro h
  have hdone : SkipsDone plainTools secondMigration (0, migrating "migrate-web") :=
    ((along_append (step plainTools) _ _ _ _).mp h).2.1
  have hcompares : secondMigration.2[0]? = some (.comparing
      ⟨.init, (∅ : BTreeMap TaskConfig).insert "migrate" (migrate "migrate-web"), "/app", []⟩
      "migrate" (migrate "migrate-web") [schema]) := by decide +kernel
  have hskips : (workerStep plainTools (migrating "migrate-web") secondMigration.1 (.comparing
      ⟨.init, (∅ : BTreeMap TaskConfig).insert "migrate" (migrate "migrate-web"), "/app", []⟩
      "migrate" (migrate "migrate-web") [schema])).2 = [.looping
      ⟨.init, (∅ : BTreeMap TaskConfig).insert "migrate" (migrate "migrate-web"), "/app", []⟩] := by
    decide +kernel
  have hpath : taskHashPath plainTools "/app" "migrate"
      = .ok "/data/task-hashes/f2ff61f70f70/migrate.sha256" := by decide +kernel
  have hcompleted : secondMigration.1.completed["/data/task-hashes/f2ff61f70f70/migrate.sha256"]?
      = some ⟨"/app", migrate "migrate-api", [schema]⟩ := by decide +kernel
  obtain ⟨path, completion, hpath', hcompleted', -, -, hdefinition, -⟩ :=
    hdone _ _ _ _ hcompares hskips
  obtain rfl := Except.ok.inj (hpath.symm.trans hpath')
  obtain rfl := Option.some.inj (hcompleted.symm.trans hcompleted')
  exact absurd (congrArg Prod.fst hdefinition) (by decide)

end DevstackInitTasks
