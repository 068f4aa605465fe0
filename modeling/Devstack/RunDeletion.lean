import Devstack.FacetCache
import Devstack.Names
import Devstack.SourceNames

/-! # Deleting a run — documents by identifier, cursors by the beginning of their keys

    `delete_run` of `src/infra/logs/index/compaction.rs`.  Documents go by their
    `run_id`, cursors and facet fields by a prefix of the key that joins an identifier
    and a service with `/`.

    No identifier of a run begins a key of another one.  The name of a source may hold
    a `/`, and then the keys of one source begin with another: `delete_run_exact_iff`
    says when a deletion is exact. -/

namespace DevstackRunDeletion

open DevstackModel DevstackIngest DevstackSourceNames
open DevstackExclusivity (validateNameForPathComponent)
open DevstackFacetCache (FacetFields Change)
open DevstackLogQuery (trim)
open DevstackNames (nameChars_of_accepted)

/-- What is kept under identifiers and services. -/
structure LogStore (ix : SearchIndex) where
  st : IngestState ix
  facetFields : FacetFields

variable {ix : SearchIndex}

/-- `source_key`. -/
def storeKey (runId service : String) : String := runId ++ "/" ++ service

def deleteRun (runId : String) (store : LogStore ix) : LogStore ix where
  st :=
    { index := ix.commit store.st.index (fun doc => doc.runId == runId) []
      cursors := store.st.cursors.filter (fun key _ => !key.startsWith (runId ++ "/")) }
  facetFields := (Change.deleteRun runId).publish store.facetFields

/-- The identifiers and services under which logs are indexed: those of a run, whose
    names `run_log_path` and `task_log_path` check, and those of a source, whose name is
    only checked not to be blank. -/
inductive Registered : String → String → Prop
  | service {runId service : String}
      (hrun : validateNameForPathComponent "run id" runId = .ok ())
      (hservice : validateNameForPathComponent "service" service = .ok ()) :
      Registered runId service
  | task {runId name : String} (hrun : validateNameForPathComponent "run id" runId = .ok ())
      (hname : validateNameForPathComponent "task" name = .ok ()) :
      Registered runId ("task:" ++ name)
  | source {name : String} {paths : List String} {item : ResolvedSourcePath}
      (hname : (trim name).isEmpty = false)
      (hitem : item ∈ resolvedPathsToLogSources name paths) :
      Registered (sourceRunId name) item.service

def LogStore.Stored (store : LogStore ix) (key : String) : Prop :=
  key ∈ store.st.cursors ∨ key ∈ store.facetFields

/-- All of `runId` is gone, nothing else has changed, and no key of it is one of another
    identifier as well. -/
structure DeletedExactly (runId : String) (before after : LogStore ix) : Prop where
  docs : ix.docs after.st.index = (ix.docs before.st.index).filter (fun doc => decide (doc.runId ≠ runId))
  own : ∀ service, Registered runId service →
    after.st.cursors[storeKey runId service]? = none
      ∧ after.facetFields[storeKey runId service]? = none
  others : ∀ other service, Registered other service → other ≠ runId →
    after.st.cursors[storeKey other service]? = before.st.cursors[storeKey other service]?
      ∧ after.facetFields[storeKey other service]? = before.facetFields[storeKey other service]?
  injective : ∀ other service service', Registered other service → Registered runId service' →
    before.Stored (storeKey other service) → storeKey other service = storeKey runId service' →
      other = runId ∧ service = service'

/-! ## Keys -/

theorem storeKey_toList (runId service : String) :
    (storeKey runId service).toList = runId.toList ++ '/' :: service.toList := by
  simp [storeKey]

/-- The prefix by which cursors are dropped. -/
def Begins (runId key : String) : Prop := runId.toList ++ ['/'] <+: key.toList

theorem begins_iff {runId key : String} : key.startsWith (runId ++ "/") = true ↔ Begins runId key := by
  rw [String.startsWith_string_iff, Begins, String.toList_append]
  rfl

theorem begins_storeKey (runId service : String) : Begins runId (storeKey runId service) := by
  rw [Begins, storeKey_toList]
  exact ⟨service.toList, by simp⟩

theorem storeKey_cancel {runId service service' : String}
    (h : storeKey runId service = storeKey runId service') : service = service' := by
  have hlist := congrArg String.toList h
  rw [storeKey_toList, storeKey_toList] at hlist
  exact String.toList_injective (List.cons.inj (List.append_cancel_left hlist)).2

/-- What is left under a key. -/
theorem deleteRun_getElem? (runId key : String) (store : LogStore ix) :
    (Begins runId key → (deleteRun runId store).st.cursors[key]? = none
        ∧ (deleteRun runId store).facetFields[key]? = none)
      ∧ (¬ Begins runId key → (deleteRun runId store).st.cursors[key]? = store.st.cursors[key]?
        ∧ (deleteRun runId store).facetFields[key]? = store.facetFields[key]?) := by
  rw [deleteRun, Change.publish, ← begins_iff]
  dsimp only
  rw [Std.ExtTreeMap.getElem?_filter', Std.ExtTreeMap.getElem?_filter']
  refine ⟨fun h => ?_, fun h => ?_⟩
  · simp only [h, Bool.not_true]
    cases store.st.cursors[key]? <;> cases store.facetFields[key]? <;> exact ⟨rfl, rfl⟩
  · simp only [Bool.eq_false_iff.mpr h, Bool.not_false]
    cases store.st.cursors[key]? <;> cases store.facetFields[key]? <;> exact ⟨rfl, rfl⟩

theorem registered_cases {id service : String} (h : Registered id service) :
    validateNameForPathComponent "run id" id = .ok () ∨ ∃ name, id = sourceRunId name := by
  cases h with
  | service hrun _ => exact .inl hrun
  | task hrun _ => exact .inl hrun
  | source _ _ => exact .inr ⟨_, rfl⟩

/-- The part of a key before the first separator. -/
theorem takeWhile_key {front : List Char} (hfront : '/' ∉ front) (rest : List Char) :
    (front ++ '/' :: rest).takeWhile (· ≠ '/') = front := by
  have hall : ∀ c ∈ front, decide (c ≠ '/') = true :=
    fun c hc => decide_eq_true fun he => hfront (he ▸ hc)
  rw [List.takeWhile_append_of_pos hall, List.takeWhile_cons_of_neg (by decide), List.append_nil]

theorem runId_chars {runId : String}
    (h : validateNameForPathComponent "run id" runId = .ok ()) :
    '/' ∉ runId.toList ∧ ':' ∉ runId.toList := by
  obtain ⟨-, hchars⟩ := nameChars_of_accepted h
  exact ⟨fun hmem => absurd (hchars _ hmem) (by decide),
    fun hmem => absurd (hchars _ hmem) (by decide)⟩

/-- The keys of sources have a `:` before their first separator. -/
theorem colon_of_source (rest : List Char) :
    ':' ∈ ("source:".toList ++ rest).takeWhile (· ≠ '/') := by
  rw [List.takeWhile_append_of_pos (by simp)]
  exact List.mem_append_left _ (by simp)

theorem sourceRunId_toList (name : String) :
    (sourceRunId name).toList = "source:".toList ++ name.toList :=
  String.toList_append

theorem sourceRunId_inj {name name' : String} (h : sourceRunId name = sourceRunId name') :
    name = name' := by
  have hlist := congrArg String.toList h
  rw [sourceRunId_toList, sourceRunId_toList] at hlist
  exact String.toList_injective (List.append_cancel_left hlist)

/-- A run's identifier begins no keys but its own. -/
theorem begins_of_run {runId other service : String}
    (hrun : validateNameForPathComponent "run id" runId = .ok ())
    (hother : Registered other service) (h : Begins runId (storeKey other service)) :
    other = runId := by
  obtain ⟨hslash, hcolon⟩ := runId_chars hrun
  obtain ⟨rest, hrest⟩ := h
  rw [storeKey_toList, List.append_assoc] at hrest
  have hfirst := takeWhile_key hslash rest
  rw [show runId.toList ++ '/' :: rest = runId.toList ++ (['/'] ++ rest) from rfl, hrest] at hfirst
  rcases registered_cases hother with hrun' | ⟨name, rfl⟩
  · rw [takeWhile_key (runId_chars hrun').1] at hfirst
    exact String.toList_injective hfirst
  · rw [sourceRunId_toList, List.append_assoc] at hfirst
    exact absurd (hfirst ▸ colon_of_source _) hcolon

/-- A source's identifier begins no keys of runs, and of another source those that its
    name begins. -/
theorem begins_of_source {name other service : String} (hother : Registered other service)
    (h : Begins (sourceRunId name) (storeKey other service)) :
    ∃ name', other = sourceRunId name' ∧ Begins name (storeKey name' service) := by
  rcases registered_cases hother with hrun | ⟨name', rfl⟩
  · obtain ⟨hslash, hcolon⟩ := runId_chars hrun
    obtain ⟨rest, hrest⟩ := h
    rw [storeKey_toList, sourceRunId_toList, List.append_assoc, List.append_assoc] at hrest
    have hfirst := takeWhile_key hslash service.toList
    rw [← hrest] at hfirst
    exact absurd (hfirst ▸ colon_of_source _) hcolon
  · refine ⟨name', rfl, ?_⟩
    rw [Begins, storeKey_toList, sourceRunId_toList, sourceRunId_toList, List.append_assoc,
      List.append_assoc, List.prefix_append_right_inj] at h
    rw [Begins, storeKey_toList]
    exact h

theorem begins_source_iff (name name' service : String) :
    Begins (sourceRunId name) (storeKey (sourceRunId name') service)
      ↔ Begins name (storeKey name' service) := by
  rw [Begins, Begins, storeKey_toList, storeKey_toList, sourceRunId_toList, sourceRunId_toList,
    List.append_assoc, List.append_assoc, List.prefix_append_right_inj]

/-- A deletion is exact exactly if no stored key of another identifier begins with this
    one. -/
theorem deletedExactly_iff (runId : String) (store : LogStore ix) :
    DeletedExactly runId store (deleteRun runId store)
      ↔ ∀ other service, Registered other service → other ≠ runId →
          store.Stored (storeKey other service) → ¬ Begins runId (storeKey other service) := by
  constructor
  · intro h other service hother hne hstored hbegins
    obtain ⟨hcursor, hfields⟩ := h.others other service hother hne
    obtain ⟨hcursor', hfields'⟩ := (deleteRun_getElem? runId (storeKey other service) store).1 hbegins
    rcases hstored with hstored | hstored
    · rw [← Std.ExtTreeMap.isSome_getElem?_iff_mem, ← hcursor, hcursor'] at hstored
      exact nomatch hstored
    · rw [← Std.ExtTreeMap.isSome_getElem?_iff_mem, ← hfields, hfields'] at hstored
      exact nomatch hstored
  · intro h
    refine ⟨?_, fun service _ => ?_, fun other service hother hne => ?_, ?_⟩
    · rw [deleteRun, ix.docs_commit, List.append_nil]
      refine List.filter_congr fun doc _ => ?_
      by_cases hrun : doc.runId = runId <;> simp [hrun]
    · exact (deleteRun_getElem? runId _ store).1 (begins_storeKey runId service)
    · by_cases hbegins : Begins runId (storeKey other service)
      · -- nothing is stored under such a key
        have hnone := fun hstored => h other service hother hne hstored hbegins
        obtain ⟨hcursor, hfields⟩ := (deleteRun_getElem? runId _ store).1 hbegins
        have hcursors : store.st.cursors[storeKey other service]? = none :=
          Std.ExtTreeMap.getElem?_eq_none fun hmem => hnone (.inl hmem)
        have hknown : store.facetFields[storeKey other service]? = none :=
          Std.ExtTreeMap.getElem?_eq_none fun hmem => hnone (.inr hmem)
        rw [hcursor, hfields, hcursors, hknown]
        exact ⟨rfl, rfl⟩
      · exact (deleteRun_getElem? runId _ store).2 hbegins
    · intro other service service' hother _ hstored heq
      by_cases hsame : other = runId
      · subst hsame
        exact ⟨rfl, storeKey_cancel heq⟩
      · exact absurd (heq ▸ begins_storeKey runId service') (h other service hother hsame hstored)

/-- **WHEN A DELETION IS EXACT**: always for a run, and for a source exactly if no key that
    is stored for another source begins with its name and a separator. -/
theorem delete_run_exact_iff (store : LogStore ix) {runId service₀ : String}
    (hrunId : Registered runId service₀) :
    DeletedExactly runId store (deleteRun runId store)
      ↔ ∀ name other service, runId = sourceRunId name → other ≠ name →
          Registered (sourceRunId other) service →
          store.Stored (storeKey (sourceRunId other) service) →
            ¬ Begins name (storeKey other service) := by
  rw [deletedExactly_iff]
  constructor
  · rintro h name other service rfl hne hother hstored hbegins
    exact h _ service hother (fun he => hne (sourceRunId_inj he)) hstored
      ((begins_source_iff name other service).mpr hbegins)
  · intro h other service hother hne hstored hbegins
    rcases registered_cases hrunId with hrun | ⟨name, rfl⟩
    · exact hne (begins_of_run hrun hother hbegins)
    · obtain ⟨name', rfl, hname⟩ := begins_of_source hother hbegins
      exact h name name' service rfl (fun he => hne (he ▸ rfl)) hother hstored hname

/-! ## Two runs, and two sources of which one name begins the other -/

open DevstackIngestExact (listIndex)

/-- A cursor under each key. -/
def cursorsOf (keys : List String) : LogStore listIndex where
  st := ⟨[], keys.foldl (fun cursors key => cursors.insert key ⟨2, 1⟩) ∅⟩
  facetFields := ∅

theorem delete_run_exact_dev1 :
    DeletedExactly "dev-1" (cursorsOf ["dev-1/web", "dev-10/web"])
      (deleteRun "dev-1" (cursorsOf ["dev-1/web", "dev-10/web"])) := by
  have hweb : Registered "dev-1" "web" := .service (by decide) (by decide)
  refine (delete_run_exact_iff (cursorsOf ["dev-1/web", "dev-10/web"]) hweb).mpr ?_
  intro name other service hname
  have hfirst := congrArg (fun runId => runId.toList.head?) hname
  rw [sourceRunId_toList] at hfirst
  exact absurd hfirst (by simp)

/-- The source `app/db` of one file: its key begins with `source:app/`, and the deletion of
    the source `app` drops its cursor. -/
theorem source_in_source :
    ¬ DeletedExactly (sourceRunId "app") (cursorsOf ["source:app/app", "source:app/db/app/db"])
      (deleteRun (sourceRunId "app") (cursorsOf ["source:app/app", "source:app/db/app/db"])) := by
  intro h
  have hdb : Registered (sourceRunId "app/db") "app/db" :=
    @Registered.source "app/db" ["/logs/db.log"] ⟨"app/db", "/logs/db.log"⟩ (by decide) (by decide)
  obtain ⟨hcursor, -⟩ := h.others _ _ hdb (by decide)
  have hbegins : Begins (sourceRunId "app") (storeKey (sourceRunId "app/db") "app/db") := by
    rw [begins_source_iff, Begins]
    decide
  rw [((deleteRun_getElem? _ _ _).1 hbegins).1] at hcursor
  revert hcursor
  decide +kernel

end DevstackRunDeletion
