import Devstack.FileUpdates
import Devstack.SourceRemoval

/-! # Source states — what is known of the index of each source

    `set_index_state` and `remove_index_state` of `src/sources.rs`.  The states of all
    sources are in one file; every change of one of them loads the file and writes it
    whole again.  Requests and backfills change it at any time, and the lock of the
    registry is not held from the load to the write.

    Each source keeps the state of its last change along every run in which no change
    loads the file between another's load and its rename (`states_kept`). -/

namespace DevstackSourceStates

open DevstackModel DevstackFiles DevstackInterleaving DevstackMachine DevstackAtomicWrite
open DevstackFileUpdates
open DevstackSourceRemoval (SourceIndexStatus)
open DevstackTaskHistory (quoted calm)

-- ── sources.rs ────────────────────────────────────────────────────────────────

structure SourceFileIndexState where
  service : String
  path : String
  len : Nat
  modifiedNanos : Option Int
  indexedOffset : Nat
  nextSeq : Nat
  firstTsNanos : Option Int
  lastTsNanos : Option Int
  skippedByRetention : Bool
  deriving DecidableEq

structure SourceIndexState where
  name : String
  runId : String
  status : SourceIndexStatus
  retentionSeconds : Nat
  retentionCutoffNanos : Option Int
  retainedDocs : Nat
  retainedThroughNanos : Option Int
  files : List SourceFileIndexState
  lastIndexedAt : Option String
  error : Option String
  deriving DecidableEq

structure SourceIndexStateFile where
  version : Nat
  sources : BTreeMap SourceIndexState
  deriving DecidableEq

def sourceIndexStateVersion : Nat := 1

/-- The file name of `sources_state_path`. -/
def sourcesStatePath : String := "sources_state.json"

/-- What `serde_json` prints for the file, and reads. -/
structure StateJson where
  serialize : SourceIndexStateFile → List UInt8
  parse : List UInt8 → Except String SourceIndexStateFile

inductive StateUpdate where
  | setIndexState (state : SourceIndexState)
  | removeIndexState (name : String)

/-- The source that an update is for. -/
def StateUpdate.source : StateUpdate → String
  | .setIndexState state => state.name
  | .removeIndexState name => name

/-- What `set_index_state` and `remove_index_state` do to the file they have loaded. -/
def StateUpdate.change (file : SourceIndexStateFile) : StateUpdate → Option SourceIndexStateFile
  | .setIndexState state =>
      some ⟨sourceIndexStateVersion, file.sources.insert state.name state⟩
  | .removeIndexState name =>
      if name ∈ file.sources then some { file with sources := file.sources.erase name } else none

/-- The file, as one that is loaded, changed and saved. -/
def stateFile (json : StateJson) : Updated SourceIndexStateFile StateUpdate where
  path := sourcesStatePath
  parse := json.parse
  serialize := json.serialize
  absent := ⟨0, ∅⟩
  change := fun update file => update.change file

-- ── what is claimed ───────────────────────────────────────────────────────────

/-- The state that an update leaves its source. -/
def StateUpdate.leaves : StateUpdate → Option SourceIndexState
  | .setIndexState state => some state
  | .removeIndexState _ => none

/-- The state of a source after updates: what the last update of the source has left. -/
def lastState (initial : SourceIndexStateFile) (completed : List StateUpdate) (name : String) :
    Option SourceIndexState :=
  match (completed.filter (fun update => update.source = name)).getLast? with
  | some update => update.leaves
  | none => initial.sources[name]?

/-- The file can be read, and has for each source the state of its last completed update. -/
def StatesKept (json : StateJson) (initial : SourceIndexStateFile)
    (s : Disk StateUpdate × List (FileTask StateUpdate)) : Prop :=
  ∃ file, load (stateFile json) s.1.files = .ok file
    ∧ ∀ name : String, file.sources[name]? = lastState initial s.1.completed name

/-! ## One update after the other -/

section Updates

variable {json : StateJson}

/-- An update changes the state of its own source. -/
theorem change_sources (update : StateUpdate) (file : SourceIndexStateFile) (name : String) :
    ((update.change file).getD file).sources[name]?
      = if update.source = name then update.leaves else file.sources[name]? := by
  by_cases hname : update.source = name
  · rw [if_pos hname, ← hname]
    cases update with
    | setIndexState state => simp [StateUpdate.change, StateUpdate.source, StateUpdate.leaves]
    | removeIndexState removed =>
        by_cases hmem : removed ∈ file.sources
        · simp [StateUpdate.change, StateUpdate.source, StateUpdate.leaves, hmem]
        · rw [StateUpdate.change, if_neg hmem]
          exact Std.ExtTreeMap.getElem?_eq_none hmem
  · rw [if_neg hname]
    cases update with
    | setIndexState state =>
        have hname : state.name ≠ name := hname
        simp [StateUpdate.change, Std.ExtTreeMap.getElem?_insert, hname]
    | removeIndexState removed =>
        have hname : removed ≠ name := hname
        by_cases hmem : removed ∈ file.sources
        · simp [StateUpdate.change, hmem, Std.ExtTreeMap.getElem?_erase, hname]
        · simp [StateUpdate.change, hmem]

theorem after_sources (initial : SourceIndexStateFile) (completed : List StateUpdate)
    (name : String) :
    (after (stateFile json) initial completed).sources[name]? = lastState initial completed name := by
  induction completed using List.reverseRecOn with
  | nil => rfl
  | append_singleton completed update ih =>
      rw [after_append]
      refine (change_sources update _ name).trans ?_
      rw [lastState, List.filter_append]
      by_cases hname : update.source = name
      · rw [if_pos hname, List.filter_cons_of_pos (by simpa using hname), List.filter_nil,
          List.getLast?_concat]
      · rw [if_neg hname, List.filter_cons_of_neg (by simpa using hname), List.filter_nil,
          List.append_nil]
        exact ih

end Updates

/-- Along every run of updates of the states, whichever writes fail, in which no update
    loads the file between another's load and its rename: after every step the file has
    for each source what the last completed update of that source has left. -/
theorem states_kept (json : StateJson) {f : Files String} (hf : f.WellFormed)
    {initial : SourceIndexStateFile} (hload : load (stateFile json) f = .ok initial)
    {updates : List StateUpdate} (hfaithful : Faithful (stateFile json) initial updates)
    (as : List (Nat × Env))
    (hcond : Along (stepAt (FileTask.step (stateFile json))) (Alone (stateFile json))
      (updating f updates) as) :
    Along (stepAt (FileTask.step (stateFile json)))
      (fun s a => StatesKept json initial (stepAt (FileTask.step (stateFile json)) s a))
      (updating f updates) as := by
  have hpath : (stateFile json).path ≠ tmpPath (stateFile json).path := by
    show sourcesStatePath ≠ tmpPath sourcesStatePath
    decide
  refine along_mono _ ?_ (updates_kept (stateFile json) hpath hf hload hfaithful as hcond)
  intro s a hkept
  exact ⟨_, hkept, after_sources initial _⟩

/-! ## Two sources that are queued at once -/

def printStatus : SourceIndexStatus → String
  | .queued => "queued"
  | .indexing => "indexing"
  | .current => "current"
  | .error => "error"

def printOption {β : Type} (print : β → String) : Option β → String
  | some value => print value
  | none => "null"

/-- A state as `to_vec_pretty` prints it, without files, without an error, and for texts that
    need no escapes. -/
def printState (state : SourceIndexState) : String :=
  let fields := [("name", quoted state.name), ("run_id", quoted state.runId),
    ("status", quoted (printStatus state.status)),
    ("retention_seconds", toString state.retentionSeconds),
    ("retention_cutoff_nanos", printOption toString state.retentionCutoffNanos),
    ("retained_docs", toString state.retainedDocs),
    ("retained_through_nanos", printOption toString state.retainedThroughNanos),
    ("files", "[]"), ("last_indexed_at", printOption quoted state.lastIndexedAt)]
  "    " ++ quoted state.name ++ ": \x7b\n"
    ++ String.intercalate ",\n" (fields.map (fun field =>
      "      " ++ quoted field.1 ++ ": " ++ field.2))
    ++ "\n    \x7d"

def printStates (file : SourceIndexStateFile) : String :=
  let sources :=
    if file.sources.isEmpty then "\x7b\x7d"
    else
      "\x7b\n" ++ String.intercalate ",\n" (file.sources.values.map printState) ++ "\n  \x7d"
  "\x7b\n  \"version\": " ++ toString file.version ++ ",\n  \"sources\": " ++ sources ++ "\n\x7d"

/-- `serde_json` on the texts of some files. -/
def jsonOf (known : List SourceIndexStateFile) : StateJson where
  serialize := fun file => (printStates file).toUTF8.data.toList
  parse := fun bytes =>
    match known.find? (fun file => (printStates file).toUTF8.data.toList = bytes) with
    | some file => .ok file
    | none => .error "expected value at line 1 column 1"

def queuedState (name : String) : SourceIndexState where
  name := name
  runId := DevstackSourceNames.sourceRunId name
  status := .queued
  retentionSeconds := 604800
  retentionCutoffNanos := some 0
  retainedDocs := 0
  retainedThroughNanos := none
  files := []
  lastIndexedAt := some "2025-01-01T00:00:00Z"
  error := none

/-- The file with the queued states of these sources. -/
def queuedFile (names : List String) : SourceIndexStateFile :=
  ⟨sourceIndexStateVersion,
    names.foldl (fun sources name => sources.insert name (queuedState name)) ∅⟩

def noStates : SourceIndexStateFile := ⟨0, ∅⟩

/-- The sources are keyed by their names, whatever was queued first. -/
theorem queuedFile_swap : queuedFile ["db", "app"] = queuedFile ["app", "db"] := by
  rw [queuedFile, queuedFile]
  congr 1
  refine Std.ExtTreeMap.ext_getElem? ?_
  intro name
  simp only [List.foldl_cons, List.foldl_nil, Std.ExtTreeMap.getElem?_insert]
  by_cases happ : compare "app" name = .eq
  · have hdb : compare "db" name ≠ .eq := by
      rw [← Std.LawfulEqOrd.eq_of_compare happ]
      decide
    rw [if_pos happ, if_neg hdb, if_pos happ]
  · rw [if_neg happ, if_neg happ]

/-- What updates that queue these two sources leave. -/
def appAndDb : List SourceIndexStateFile :=
  [noStates, queuedFile ["app"], queuedFile ["db"], queuedFile ["app", "db"]]

/-- The orders in which they can be queued first. -/
def queuedNames : List (List String) := [["app"], ["db"], ["app", "db"], ["db", "app"]]

def queueBoth : List StateUpdate :=
  [.setIndexState (queuedState "app"), .setIndexState (queuedState "db")]

/-- One source is set and then the other, each to its end. -/
def inTurn : List (Nat × Env) := List.replicate 5 (0, calm) ++ List.replicate 6 (1, calm)

/-- The file has both. -/
theorem states_kept_two :
    (load (stateFile (jsonOf appAndDb)) (run (stepAt (FileTask.step (stateFile (jsonOf appAndDb))))
        (updating emptyDir queueBoth) inTurn).1.files).toOption = some (queuedFile ["app", "db"])
      ∧ Along (stepAt (FileTask.step (stateFile (jsonOf appAndDb))))
          (fun s a => StatesKept (jsonOf appAndDb) noStates
            (stepAt (FileTask.step (stateFile (jsonOf appAndDb))) s a))
          (updating emptyDir queueBoth) inTurn := by
  have hload : load (stateFile (jsonOf appAndDb)) emptyDir = .ok noStates := rfl
  refine ⟨by decide +kernel, states_kept _ emptyDir_wellFormed hload ?_ _ (by decide +kernel)⟩
  intro done hdone
  have hfirst : ∀ name ∈ ["app", "db"], ((stateFile (jsonOf appAndDb)).change
      (.setIndexState (queuedState name)) noStates).getD noStates = queuedFile [name] := by
    decide +kernel
  have hnext : ∀ names ∈ queuedNames, ∀ name ∈ ["app", "db"],
      ((stateFile (jsonOf appAndDb)).change (.setIndexState (queuedState name))
          (queuedFile names)).getD (queuedFile names)
        = queuedFile (if name ∈ names then names else names ++ [name])
      ∧ (if name ∈ names then names else names ++ [name]) ∈ queuedNames := by
    decide +kernel
  have hread : ∀ file ∈ appAndDb, (stateFile (jsonOf appAndDb)).parse
      ((stateFile (jsonOf appAndDb)).serialize file) = .ok file := by
    decide +kernel
  have hafter : after (stateFile (jsonOf appAndDb)) noStates done = noStates
      ∨ ∃ names ∈ queuedNames,
        after (stateFile (jsonOf appAndDb)) noStates done = queuedFile names := by
    induction done using List.reverseRecOn with
    | nil => exact Or.inl rfl
    | append_singleton done update ih =>
        obtain ⟨name, hname, rfl⟩ : ∃ name ∈ ["app", "db"],
            update = .setIndexState (queuedState name) := by
          simpa [queueBoth] using hdone update (by simp)
        rw [after_append]
        refine Or.inr ?_
        rcases ih fun update hupdate => hdone update (List.mem_append_left _ hupdate) with
          hnone | ⟨names, hnames, hold⟩
        · rw [hnone]
          exact ⟨[name], by simpa [queuedNames] using hname, hfirst name hname⟩
        · rw [hold]
          exact ⟨_, (hnext names hnames name hname).2, (hnext names hnames name hname).1⟩
  rcases hafter with hnone | ⟨names, hnames, hqueued⟩
  · rw [hnone]
    exact hread _ (by simp [appAndDb])
  · rw [hqueued]
    simp only [queuedNames, List.mem_cons, List.not_mem_nil, or_false] at hnames
    rcases hnames with rfl | rfl | rfl | rfl
    · exact hread _ (by simp [appAndDb])
    · exact hread _ (by simp [appAndDb])
    · exact hread _ (by simp [appAndDb])
    · rw [queuedFile_swap]
      exact hread _ (by simp [appAndDb])

/-- Both load the file, then both write it. -/
def bothQueued : List (Nat × Env) :=
  [(0, calm), (1, calm), (0, calm), (0, calm), (0, calm), (0, calm), (1, calm), (1, calm),
    (1, calm)]

/-- **ONE OF TWO.**  Both states are set without an error, and the file has one of them. -/
theorem second_state_overwrites :
    ¬ Along (stepAt (FileTask.step (stateFile (jsonOf [queuedFile ["app"], queuedFile ["db"]]))))
      (fun s a => StatesKept (jsonOf [queuedFile ["app"], queuedFile ["db"]]) noStates
        (stepAt (FileTask.step (stateFile (jsonOf [queuedFile ["app"], queuedFile ["db"]]))) s a))
      (updating emptyDir [.setIndexState (queuedState "app"), .setIndexState (queuedState "db")])
      (bothQueued ++ [(1, calm)]) := by
  intro halong
  rw [along_append] at halong
  obtain ⟨-, ⟨file, hload, hstates⟩, -⟩ := halong
  have hafter : (load (stateFile (jsonOf [queuedFile ["app"], queuedFile ["db"]]))
      (stepAt (FileTask.step (stateFile (jsonOf [queuedFile ["app"], queuedFile ["db"]])))
        (run (stepAt (FileTask.step (stateFile (jsonOf [queuedFile ["app"], queuedFile ["db"]]))))
          (updating emptyDir [.setIndexState (queuedState "app"), .setIndexState (queuedState "db")])
          bothQueued) (1, calm)).1.files).toOption = some (queuedFile ["db"]) := by
    decide +kernel
  have hlast : lastState noStates (stepAt
      (FileTask.step (stateFile (jsonOf [queuedFile ["app"], queuedFile ["db"]])))
      (run (stepAt (FileTask.step (stateFile (jsonOf [queuedFile ["app"], queuedFile ["db"]]))))
        (updating emptyDir [.setIndexState (queuedState "app"), .setIndexState (queuedState "db")])
        bothQueued) (1, calm)).1.completed "app" = some (queuedState "app") := by
    decide +kernel
  have happ := hstates "app"
  rw [hload] at hafter
  rw [hlast, Option.some.inj hafter] at happ
  exact absurd happ (by decide)

end DevstackSourceStates
