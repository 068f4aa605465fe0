import Devstack.SourceStates

/-! # The source registry — what a failed change leaves behind

    `SourceRegistry::add` and `SourceRegistry::remove` of `src/sources.rs`.  The ledger
    is in memory and in a file, the states of the indexes are in another one.  A call
    reloads the ledger if its file has changed, changes it in memory, writes it and, for
    a removal, takes the state out of the other file; an error at any point leaves what
    was done before it.

    A failed call leaves all of them as they were exactly if it has failed before its
    first change (`registry_atomic_iff`). -/

namespace DevstackSourceRegistry

open DevstackModel DevstackSourceStates
open DevstackLogQuery (trim)
open DevstackSourceNames (ResolvedSourcePath)

-- ── sources.rs ────────────────────────────────────────────────────────────────

structure SourceEntry where
  name : String
  paths : List String
  createdAt : String
  retentionSeconds : Option Nat
  deriving DecidableEq

/-- `SourcesLedger`. -/
abbrev SourcesLedger := BTreeMap SourceEntry

/-- What `serde_json` prints for the ledger, and reads. -/
structure LedgerJson where
  serialize : SourcesLedger → List UInt8
  parse : List UInt8 → Except String SourcesLedger

structure ResolvedSourceCacheEntry where
  paths : List ResolvedSourcePath
  expiresAt : Nat

/-- `SourceRegistryInner` and the two files; the ledger's has its modification time. -/
structure Registry where
  ledger : SourcesLedger
  loadedModified : Option Nat
  resolved : BTreeMap ResolvedSourceCacheEntry
  ledgerFile : Option (List UInt8 × Nat)
  stateFile : Option (List UInt8)

/-- What the outside answers to a call: which reads and writes fail, the time of a write
    and `now_rfc3339`. -/
structure Answers where
  readLedgerFails : Bool
  writeLedgerFails : Bool
  readStateFails : Bool
  writeStateFails : Bool
  modified : Nat
  now : String

structure RegistryJson where
  ledger : LedgerJson
  state : StateJson

variable (json : RegistryJson) (answers : Answers)

/-- `modified_time` of the ledger's file. -/
def modifiedTime (w : Registry) : Option Nat := w.ledgerFile.map (·.2)

/-- `SourcesLedger::load_from_path`. -/
def loadFromPath (w : Registry) : Except String SourcesLedger :=
  match w.ledgerFile with
  | none => .ok ∅
  | some (bytes, _) =>
      if answers.readLedgerFails then .error "read sources ledger"
      else json.ledger.parse bytes

/-- `SourcesLedger::save_to_path`: a failed `atomic_write` leaves the file as it is. -/
def saveToPath (w : Registry) : Except String Unit × Registry :=
  if answers.writeLedgerFails then (.error "write sources ledger", w)
  else (.ok (), { w with ledgerFile := some (json.ledger.serialize w.ledger, answers.modified) })

/-- The entry that `add_at` makes. -/
def newEntry (name : String) (paths : List String) (retentionSeconds : Option Nat) : SourceEntry where
  name := name
  paths := (paths.map trim).filter (fun path => !path.isEmpty)
  createdAt := answers.now
  retentionSeconds := retentionSeconds

/-- `SourcesLedger::add_at`. -/
def addAt (name : String) (paths : List String) (retentionSeconds : Option Nat) (w : Registry) :
    Except String Unit × Registry :=
  if (trim name).isEmpty then (.error "source name cannot be empty", w)
  else
    let entry := newEntry answers name paths retentionSeconds
    if entry.paths.isEmpty then (.error "source must include at least one path or glob", w)
    else saveToPath json answers { w with ledger := w.ledger.insert name entry }

/-- `SourcesLedger::remove_at`. -/
def removeAt (name : String) (w : Registry) : Except String Bool × Registry :=
  if name ∈ w.ledger then
    match saveToPath json answers { w with ledger := w.ledger.erase name } with
    | (.error err, w) => (.error err, w)
    | (.ok (), w) => (.ok true, w)
  else (.ok false, w)

/-- `load_index_state_file`. -/
def loadIndexStateFile (w : Registry) : Except String SourceIndexStateFile :=
  match w.stateFile with
  | none => .ok ⟨0, ∅⟩
  | some bytes =>
      if answers.readStateFails then .error "read source index state"
      else json.state.parse bytes

/-- `remove_index_state`. -/
def removeIndexState (name : String) (w : Registry) : Except String Unit × Registry :=
  match loadIndexStateFile json answers w with
  | .error err => (.error err, w)
  | .ok file =>
      match StateUpdate.change file (.removeIndexState name) with
      | none => (.ok (), w)
      | some changed =>
          if answers.writeStateFails then (.error "write source index state", w)
          else (.ok (), { w with stateFile := some (json.state.serialize changed) })

/-- `refresh_if_changed`; with an error it changes nothing. -/
def refreshIfChanged (w : Registry) : Except String Registry :=
  if modifiedTime w = w.loadedModified then .ok w
  else
    match loadFromPath json answers w with
    | .error err => .error err
    | .ok ledger =>
        .ok { w with ledger := ledger, loadedModified := modifiedTime w, resolved := ∅ }

/-- What `add` and `remove` do after the ledger was written. -/
def settle (name : String) (w : Registry) : Registry :=
  { w with loadedModified := modifiedTime w, resolved := w.resolved.erase name }

/-- `SourceRegistry::add`. -/
def add (name : String) (paths : List String) (retentionSeconds : Option Nat) (w : Registry) :
    Except String SourceEntry × Registry :=
  match refreshIfChanged json answers w with
  | .error err => (.error err, w)
  | .ok w =>
      match addAt json answers name paths retentionSeconds w with
      | (.error err, w) => (.error err, w)
      | (.ok (), w) =>
          let w := settle name w
          match w.ledger[name]? with
          | some entry => (.ok entry, w)
          | none => (.error s!"source {name} was not persisted", w)

/-- `SourceRegistry::remove`. -/
def remove (name : String) (w : Registry) : Except String Bool × Registry :=
  match refreshIfChanged json answers w with
  | .error err => (.error err, w)
  | .ok w =>
      match removeAt json answers name w with
      | (.error err, w) => (.error err, w)
      | (.ok false, w) => (.ok false, w)
      | (.ok true, w) =>
          match removeIndexState json answers name (settle name w) with
          | (.error err, w) => (.error err, w)
          | (.ok (), w) => (.ok true, w)

-- ── what is claimed ───────────────────────────────────────────────────────────

inductive Operation where
  | add (name : String) (paths : List String) (retentionSeconds : Option Nat)
  | remove (name : String)

/-- Whether an operation returns an error, and what it leaves. -/
def Operation.run (w : Registry) : Operation → Bool × Registry
  | .add name paths retentionSeconds =>
      let result := DevstackSourceRegistry.add json answers name paths retentionSeconds w
      (result.1.toOption.isNone, result.2)
  | .remove name =>
      let result := DevstackSourceRegistry.remove json answers name w
      (result.1.toOption.isNone, result.2)

/-- Nothing fails. -/
def noFailure : Answers := ⟨false, false, false, false, 0, ""⟩

/-- The ledger that `list` and `get` answer from. -/
def seen (w : Registry) : Except String SourcesLedger :=
  (refreshIfChanged json noFailure w).map (·.ledger)

/-- The list that is seen and both files are as they were. -/
structure Unchanged (w w' : Registry) : Prop where
  list : seen json w' = seen json w
  ledgerFile : w'.ledgerFile = w.ledgerFile
  stateFile : w'.stateFile = w.stateFile

/-- The input is rejected. -/
def Rejected (name : String) (paths : List String) : Prop :=
  (trim name).isEmpty = true ∨ (paths.map trim).filter (fun path => !path.isEmpty) = []

/-- The state of the source can be taken out of its file. -/
def StateRemovable (name : String) (w : Registry) : Prop :=
  ∃ file, loadIndexStateFile json answers w = .ok file
    ∧ (name ∈ file.sources → answers.writeStateFails = false)

/-- No failure comes after the first change, for the ledger that the call has found: the
    input is rejected, the entry is there already, or the writes succeed. -/
def FailsEarly (found : Registry) : Operation → Prop
  | .add name paths retentionSeconds =>
      Rejected name paths ∨ answers.writeLedgerFails = false
        ∨ found.ledger[name]? = some (newEntry answers name paths retentionSeconds)
  | .remove name =>
      name ∉ found.ledger ∨ (answers.writeLedgerFails = false ∧ StateRemovable json answers name found)

/-! ## The ledger that a call finds -/

section Found

variable {json} {answers} {w found : Registry}

/-- A ledger whose file has not changed is the one that is seen. -/
theorem seen_current (h : w.loadedModified = modifiedTime w) : seen json w = .ok w.ledger := by
  rw [seen, refreshIfChanged, if_pos h.symm]
  rfl

/-- What a call finds is what was seen before it, over the same files. -/
theorem found_of_refresh (h : refreshIfChanged json answers w = .ok found) :
    found.loadedModified = modifiedTime found ∧ Unchanged json w found
      ∧ seen json w = .ok found.ledger := by
  rw [refreshIfChanged] at h
  by_cases hsame : modifiedTime w = w.loadedModified
  · rw [if_pos hsame] at h
    obtain rfl := Except.ok.inj h
    exact ⟨hsame.symm, ⟨rfl, rfl, rfl⟩, seen_current hsame.symm⟩
  · rw [if_neg hsame] at h
    split at h
    · exact nomatch h
    · next ledger hload =>
        obtain rfl := Except.ok.inj h
        -- a read that did not fail gives the same without failures
        have hcalm : loadFromPath json noFailure w = .ok ledger := by
          rw [loadFromPath] at hload ⊢
          split at hload
          · exact hload
          · split at hload
            · exact nomatch hload
            · exact hload
        have hseen : seen json w = .ok ledger := by
          rw [seen, refreshIfChanged, if_neg hsame, hcalm]
          rfl
        exact ⟨rfl, ⟨(seen_current rfl).trans hseen.symm, rfl, rfl⟩, hseen⟩

/-- A change of the ledger that is not written is seen all the same. -/
theorem unchanged_memory_iff (hcurrent : found.loadedModified = modifiedTime found)
    (hfound : Unchanged json w found) (ledger : SourcesLedger) :
    Unchanged json w { found with ledger := ledger } ↔ ledger = found.ledger := by
  have hseen : seen json { found with ledger := ledger } = .ok ledger := seen_current hcurrent
  have hbefore : seen json w = .ok found.ledger := hfound.list.symm.trans (seen_current hcurrent)
  constructor
  · intro h
    exact Except.ok.inj (hseen.symm.trans (h.list.trans hbefore))
  · rintro rfl
    exact hfound

end Found

/-! ## Adding -/

section Adding

variable {json} {answers} {w found : Registry} {name : String} {paths : List String}
  {retentionSeconds : Option Nat}

theorem addAt_rejected (h : Rejected name paths) :
    ∃ err, addAt json answers name paths retentionSeconds found = (.error err, found) := by
  rw [addAt]
  by_cases hname : (trim name).isEmpty = true
  · rw [if_pos hname]
    exact ⟨_, rfl⟩
  · rw [if_neg hname]
    have hpaths := h.resolve_left hname
    refine ⟨_, if_pos ?_⟩
    rw [newEntry, hpaths]
    rfl

theorem addAt_accepted (h : ¬ Rejected name paths) :
    addAt json answers name paths retentionSeconds found
      = saveToPath json answers { found with
          ledger := found.ledger.insert name (newEntry answers name paths retentionSeconds) } := by
  rw [Rejected, not_or] at h
  rw [addAt, if_neg h.1]
  refine if_neg ?_
  rw [List.isEmpty_iff]
  exact h.2

theorem insert_eq_self_iff {ledger : SourcesLedger} {entry : SourceEntry} :
    ledger.insert name entry = ledger ↔ ledger[name]? = some entry := by
  constructor
  · intro h
    rw [← h, Std.ExtTreeMap.getElem?_insert_self]
  · intro h
    refine Std.ExtTreeMap.ext_getElem? ?_
    intro other
    rw [Std.ExtTreeMap.getElem?_insert]
    by_cases hother : name = other
    · subst hother
      rw [if_pos Std.ReflCmp.compare_self, h]
    · rw [if_neg (by simpa using hother)]

/-- The three ends of an `add`: rejected, not written, done. -/
theorem add_ends (hfound : refreshIfChanged json answers w = .ok found) :
    (Rejected name paths
        ∧ (Operation.add name paths retentionSeconds).run json answers w = (true, found))
      ∨ (¬ Rejected name paths ∧ answers.writeLedgerFails = true
        ∧ (Operation.add name paths retentionSeconds).run json answers w = (true, { found with
            ledger := found.ledger.insert name (newEntry answers name paths retentionSeconds) }))
      ∨ (¬ Rejected name paths ∧ answers.writeLedgerFails = false
        ∧ ((Operation.add name paths retentionSeconds).run json answers w).1 = false) := by
  by_cases hrejected : Rejected name paths
  · obtain ⟨err, hadd⟩ : ∃ err, addAt json answers name paths retentionSeconds found
        = (.error err, found) := addAt_rejected hrejected
    refine Or.inl ⟨hrejected, ?_⟩
    simp only [Operation.run, add, hfound, hadd]
    rfl
  · have hadd : addAt json answers name paths retentionSeconds found = _ :=
      addAt_accepted hrejected
    rw [saveToPath] at hadd
    cases hfails : answers.writeLedgerFails with
    | true =>
        rw [hfails, if_pos rfl] at hadd
        refine Or.inr (Or.inl ⟨hrejected, rfl, ?_⟩)
        simp only [Operation.run, add, hfound, hadd]
        rfl
    | false =>
        rw [hfails, if_neg Bool.false_ne_true] at hadd
        refine Or.inr (Or.inr ⟨hrejected, rfl, ?_⟩)
        simp only [Operation.run, add, hfound, hadd, settle, Std.ExtTreeMap.getElem?_insert_self]
        rfl

theorem add_atomic_iff (hfound : refreshIfChanged json answers w = .ok found) :
    (((Operation.add name paths retentionSeconds).run json answers w).1 = true →
        Unchanged json w ((Operation.add name paths retentionSeconds).run json answers w).2)
      ↔ FailsEarly json answers found (.add name paths retentionSeconds) := by
  obtain ⟨hcurrent, hunchanged, -⟩ := found_of_refresh hfound
  obtain ⟨hrejected, hrun⟩ | ⟨hrejected, hfails, hrun⟩ | ⟨hrejected, hfails, hrun⟩ :=
    @add_ends json answers w found name paths retentionSeconds hfound
  · rw [hrun]
    exact iff_of_true (fun _ => hunchanged) (Or.inl hrejected)
  · rw [hrun]
    have hmemory := unchanged_memory_iff hcurrent hunchanged
      (found.ledger.insert name (newEntry answers name paths retentionSeconds))
    rw [insert_eq_self_iff] at hmemory
    constructor
    · intro h
      exact Or.inr (Or.inr (hmemory.mp (h rfl)))
    · intro h _
      refine hmemory.mpr ((h.resolve_left hrejected).resolve_left ?_)
      rw [hfails]
      exact Bool.noConfusion
  · rw [hrun]
    exact iff_of_true (fun h => nomatch h) (Or.inr (Or.inl hfails))

end Adding

/-! ## Removing -/

section Removing

variable {json} {answers} {w found : Registry} {name : String}

theorem erase_ne_self {ledger : SourcesLedger} (h : name ∈ ledger) : ledger.erase name ≠ ledger := by
  intro heq
  rw [← heq] at h
  simp at h

/-- The four ends of a `remove`: there is no such source, the ledger was not written, the state
    was not removed, done. -/
theorem remove_ends (hfound : refreshIfChanged json answers w = .ok found) :
    (name ∉ found.ledger ∧ ((Operation.remove name).run json answers w).1 = false)
      ∨ (name ∈ found.ledger ∧ answers.writeLedgerFails = true
        ∧ (Operation.remove name).run json answers w
          = (true, { found with ledger := found.ledger.erase name }))
      ∨ (name ∈ found.ledger ∧ answers.writeLedgerFails = false
        ∧ ¬ StateRemovable json answers name found
        ∧ ∃ w', (Operation.remove name).run json answers w = (true, w')
          ∧ w'.ledger = found.ledger.erase name ∧ w'.loadedModified = modifiedTime w')
      ∨ (answers.writeLedgerFails = false ∧ StateRemovable json answers name found
        ∧ ((Operation.remove name).run json answers w).1 = false) := by
  by_cases hname : name ∈ found.ledger
  · cases hfails : answers.writeLedgerFails with
    | true =>
        refine Or.inr (Or.inl ⟨hname, rfl, ?_⟩)
        simp only [Operation.run, remove, hfound, removeAt, if_pos hname, saveToPath, hfails, if_true]
        rfl
    | false =>
        -- the ledger was written; the rest is about the other file
        let written : Registry := settle name { found with
          ledger := found.ledger.erase name
          ledgerFile := some (json.ledger.serialize (found.ledger.erase name), answers.modified) }
        have hrun : (Operation.remove name).run json answers w
            = match removeIndexState json answers name written with
              | (.error _, w') => (true, w')
              | (.ok (), w') => (false, w') := by
          simp only [Operation.run, remove, hfound, removeAt, if_pos hname, saveToPath, hfails,
            Bool.false_eq_true, if_false]
          generalize removeIndexState json answers name written = result
          obtain ⟨err | u, w'⟩ := result <;> rfl
        have hload : loadIndexStateFile json answers written = loadIndexStateFile json answers found :=
          rfl
        rw [removeIndexState, hload] at hrun
        cases hstates : loadIndexStateFile json answers found with
        | error err =>
            rw [hstates] at hrun
            refine Or.inr (Or.inr (Or.inl ⟨hname, rfl, ?_, written, hrun, rfl, rfl⟩))
            rintro ⟨file, hfile, -⟩
            cases hstates.symm.trans hfile
        | ok file =>
            rw [hstates] at hrun
            dsimp only at hrun
            by_cases hentry : name ∈ file.sources
            · rw [StateUpdate.change, if_pos hentry] at hrun
              cases hstate : answers.writeStateFails with
              | true =>
                  rw [hstate] at hrun
                  refine Or.inr (Or.inr (Or.inl ⟨hname, rfl, ?_, written, hrun, rfl, rfl⟩))
                  rintro ⟨file', hfile', hwrites⟩
                  obtain rfl := Except.ok.inj (hstates.symm.trans hfile')
                  rw [hwrites hentry] at hstate
                  cases hstate
              | false =>
                  rw [hstate] at hrun
                  refine Or.inr (Or.inr (Or.inr ⟨rfl, ⟨file, hstates, fun _ => hstate⟩, ?_⟩))
                  rw [hrun]
                  rfl
            · rw [StateUpdate.change, if_neg hentry] at hrun
              refine Or.inr (Or.inr (Or.inr ⟨rfl, ⟨file, hstates, fun h => absurd h hentry⟩, ?_⟩))
              rw [hrun]
  · refine Or.inl ⟨hname, ?_⟩
    simp only [Operation.run, remove, hfound, removeAt, if_neg hname]
    rfl

theorem remove_atomic_iff (hfound : refreshIfChanged json answers w = .ok found) :
    (((Operation.remove name).run json answers w).1 = true →
        Unchanged json w ((Operation.remove name).run json answers w).2)
      ↔ FailsEarly json answers found (.remove name) := by
  obtain ⟨hcurrent, hunchanged, hseen⟩ := found_of_refresh hfound
  obtain ⟨hname, hrun⟩ | ⟨hname, hfails, hrun⟩ | ⟨hname, -, hstate, w', hrun, hledger, hw'⟩
    | ⟨hfails, hstate, hrun⟩ := @remove_ends json answers w found name hfound
  · rw [hrun]
    exact iff_of_true (fun h => nomatch h) (Or.inl hname)
  · rw [hrun]
    refine iff_of_false ?_ ?_
    · intro h
      have hsame := (unchanged_memory_iff hcurrent hunchanged (found.ledger.erase name)).mp (h rfl)
      exact erase_ne_self hname hsame
    · rintro (hout | ⟨hwrites, -⟩)
      · exact hout hname
      · exact nomatch hfails.symm.trans hwrites
  · rw [hrun]
    refine iff_of_false ?_ ?_
    · intro h
      have hafter : seen json w' = .ok (found.ledger.erase name) := by
        rw [seen_current hw', hledger]
      have hsame := Except.ok.inj (hafter.symm.trans ((h rfl).list.trans hseen))
      exact erase_ne_self hname hsame
    · rintro (hout | ⟨-, hremovable⟩)
      · exact hout hname
      · exact hstate hremovable
  · rw [hrun]
    exact iff_of_true (fun h => nomatch h) (Or.inr ⟨hfails, hstate⟩)

end Removing

/-- For every registry and operation, whatever fails: if the operation returns an error, the
    list that is seen and both files are as they were, exactly if it could not reload the
    ledger, or comes to its first change with nothing ahead that fails. -/
theorem registry_atomic_iff (json : RegistryJson) (answers : Answers) (w : Registry)
    (op : Operation) :
    ((op.run json answers w).1 = true → Unchanged json w (op.run json answers w).2)
      ↔ ∀ found, refreshIfChanged json answers w = .ok found → FailsEarly json answers found op := by
  cases hfound : refreshIfChanged json answers w with
  | error err =>
      have hsame : (op.run json answers w).2 = w := by
        cases op <;> simp only [Operation.run, add, remove, hfound]
      rw [hsame]
      exact iff_of_true (fun _ => ⟨rfl, rfl, rfl⟩) (fun found h => nomatch h)
  | ok found =>
      have hone : (∀ found', (Except.ok found : Except String Registry) = .ok found' →
          FailsEarly json answers found' op) ↔ FailsEarly json answers found op :=
        ⟨fun h => h found rfl, fun h found' heq => Except.ok.inj heq ▸ h⟩
      rw [hone]
      cases op with
      | add name paths retentionSeconds => exact add_atomic_iff hfound
      | remove name => exact remove_atomic_iff hfound

/-! ## A source that could not be written -/

/-- `serde_json` with a ledger and no states. -/
def plainJson : RegistryJson where
  ledger := ⟨fun _ => [], fun _ => .ok ∅⟩
  state := jsonOf []

def emptyRegistry : Registry := ⟨∅, none, ∅, none, none⟩

/-- The disk is full. -/
def diskFull : Answers := ⟨false, true, false, false, 1, "2025-01-01T00:00:00Z"⟩

/-- The source was not added, but the list has it from now on. -/
theorem failed_add_is_listed :
    ((Operation.add "app" ["/logs/app.log"] none).run plainJson diskFull emptyRegistry).1 = true
      ∧ ¬ Unchanged plainJson emptyRegistry
        ((Operation.add "app" ["/logs/app.log"] none).run plainJson diskFull emptyRegistry).2 := by
  refine ⟨by decide, ?_⟩
  intro h
  have hlist := congrArg (fun result => result.toOption.map (·.size)) h.list
  revert hlist
  decide

end DevstackSourceRegistry
