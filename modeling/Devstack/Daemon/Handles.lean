import Devstack.Daemon.Effects
import Devstack.Daemon.Successors
import Devstack.Daemon.System

/-! # Handles — whose stop flag is raised

    A health monitor, a watcher and a capture proxy are each stopped through a
    handle of their own.  A handle is made once: as the health handle of one
    record, or for a watcher or a proxy, which a task carries until a record keeps
    it or its flag is raised.

    So a record's health handle belongs to no other record and is no watcher's, and
    its flag is clear for as long as it is in the record (`owned_reached`). -/

namespace DevstackHandles

open DevstackModel DevstackStores DevstackReadiness DevstackHealth DevstackConfig DevstackLaunch
open DevstackStatus DevstackLocked DevstackWorld DevstackTasks DevstackSystem DevstackEffects
open DevstackSuccessors DevstackInterleaving DevstackMachine

-- ── who holds a handle ────────────────────────────────────────────────────────

/-- A service's record in the store. -/
def Stored (w : World) (run service : String) (record : ServiceRecord) : Prop :=
  ∃ r, w.runs[run]? = some r ∧ r.services[service]? = some record

/-- A record's handle of a watcher or of a capture proxy. -/
def otherHandle (record : ServiceRecord) (h : HandleId) : Prop :=
  record.handles.watch = some h ∨ record.handles.apiCapture = some h

/-- A handle in the stores that is no service's health handle. -/
def Foreign (w : World) (h : HandleId) : Prop :=
  (∃ run service record, Stored w run service record ∧ otherHandle record h)
    ∨ ∃ (key : String) (global : GlobalRecord), w.globals[key]? = some global
        ∧ h ∈ liveHandles global.service

/-- Handles below `bound`, each with one owner; `carried` are those of the tasks. -/
structure Owned (bound : HandleId) (w : World) (carried : HandleId → Prop) : Prop where
  health_lt : ∀ {run service record h}, Stored w run service record →
    record.handles.health = some h → h < bound
  other_lt : ∀ {h}, Foreign w h ∨ carried h → h < bound
  raised_lt : ∀ {h}, h ∈ w.raised → h < bound
  apart : ∀ {run service record h}, Stored w run service record →
    record.handles.health = some h → ¬ (Foreign w h ∨ carried h)
  single : ∀ {run service record run' service' record' h}, Stored w run service record →
    Stored w run' service' record' → record.handles.health = some h →
    record'.handles.health = some h → run = run' ∧ service = service'
  clear : ∀ {run service record h}, Stored w run service record →
    record.handles.health = some h → h ∉ w.raised

section Owned

variable {bound : HandleId} {w w' : World} {carried carried' : HandleId → Prop}

theorem Owned.carries (h : Owned bound w carried) (hsub : ∀ hd, carried' hd → carried hd) :
    Owned bound w carried' where
  health_lt := h.health_lt
  other_lt := fun hd => h.other_lt (hd.imp_right (hsub _))
  raised_lt := h.raised_lt
  apart := fun hstored hhealth hd => h.apart hstored hhealth (hd.imp_right (hsub _))
  single := h.single
  clear := h.clear

/-- A step that makes no handle: what it raises was another's, or is dropped by its
    record. -/
theorem Owned.shrink (h : Owned bound w carried)
    (hhealth : ∀ {run service record' hd}, Stored w' run service record' →
      record'.handles.health = some hd →
      ∃ record, Stored w run service record ∧ record.handles.health = some hd)
    (hforeign : ∀ hd, Foreign w' hd → Foreign w hd ∨ carried hd)
    (hraised : ∀ hd ∈ w'.raised, hd ∈ w.raised ∨ (Foreign w hd ∨ carried hd)
      ∨ ∃ run service record, Stored w run service record ∧ record.handles.health = some hd
        ∧ ∀ record', Stored w' run service record' → record'.handles.health ≠ some hd) :
    Owned bound w' carried where
  health_lt := fun hstored hhd => by
    obtain ⟨record, hrecord, hbefore⟩ := hhealth hstored hhd
    exact h.health_lt hrecord hbefore
  other_lt := fun hd => h.other_lt (hd.elim (hforeign _) Or.inr)
  raised_lt := fun {hd} hmem => by
    rcases hraised hd hmem with hmem | hother | ⟨run, service, record, hstored, hhd, -⟩
    · exact h.raised_lt hmem
    · exact h.other_lt hother
    · exact h.health_lt hstored hhd
  apart := fun hstored hhd hother => by
    obtain ⟨record, hrecord, hbefore⟩ := hhealth hstored hhd
    exact h.apart hrecord hbefore (hother.elim (hforeign _) Or.inr)
  single := fun hstored hstored' hhd hhd' => by
    obtain ⟨record, hrecord, hbefore⟩ := hhealth hstored hhd
    obtain ⟨record', hrecord', hbefore'⟩ := hhealth hstored' hhd'
    exact h.single hrecord hrecord' hbefore hbefore'
  clear := fun {run service record' hd} hstored hhd hmem => by
    obtain ⟨record, hrecord, hbefore⟩ := hhealth hstored hhd
    rcases hraised hd hmem with hmem | hother | ⟨run', service', record'', hstored', hhd', hgone⟩
    · exact h.clear hrecord hbefore hmem
    · exact h.apart hrecord hbefore hother
    · obtain ⟨rfl, rfl⟩ := h.single hrecord hstored' hbefore hhd'
      exact hgone record' hstored hhd

theorem Owned.of_same (h : Owned bound w carried) (hruns : w'.runs = w.runs)
    (hglobals : w'.globals = w.globals) (hraised : w'.raised = w.raised) :
    Owned bound w' carried := by
  have hstored : ∀ {run service record}, Stored w' run service record →
      Stored w run service record := by
    intro run service record hstored
    rwa [Stored, hruns] at hstored
  refine h.shrink (fun hs hhd => ⟨_, hstored hs, hhd⟩) (fun hd hforeign => Or.inl ?_)
    (fun hd hmem => Or.inl (hraised ▸ hmem))
  rcases hforeign with ⟨run, service, record, hs, hother⟩ | ⟨key, global, hget, hlive⟩
  · exact Or.inl ⟨run, service, record, hstored hs, hother⟩
  · exact Or.inr ⟨key, global, hglobals ▸ hget, hlive⟩

/-- A handle is made and carried on. -/
theorem Owned.allocate (h : Owned bound w carried) :
    Owned (bound + 1) w (fun hd => carried hd ∨ hd = bound) where
  health_lt := fun hstored hhd => Nat.lt_succ_of_lt (h.health_lt hstored hhd)
  other_lt := fun hd => by
    rcases hd with hforeign | hcarried | rfl
    · exact Nat.lt_succ_of_lt (h.other_lt (Or.inl hforeign))
    · exact Nat.lt_succ_of_lt (h.other_lt (Or.inr hcarried))
    · exact Nat.lt_succ_self _
  raised_lt := fun hmem => Nat.lt_succ_of_lt (h.raised_lt hmem)
  apart := fun hstored hhd hother => by
    rcases hother with hforeign | hcarried | rfl
    · exact h.apart hstored hhd (Or.inl hforeign)
    · exact h.apart hstored hhd (Or.inr hcarried)
    · exact absurd (h.health_lt hstored hhd) (Nat.lt_irrefl _)
  single := h.single
  clear := h.clear

end Owned

-- ── locked steps on a run ─────────────────────────────────────────────────────

section Ops

variable {carried : HandleId → Prop}

/-- A change of one record that makes no health handle. -/
structure Careful (carried : HandleId → Prop) (record record' : ServiceRecord)
    (raised : List HandleId) : Prop where
  health : record'.handles.health = none ∨ record'.handles.health = record.handles.health
  other : ∀ h, otherHandle record' h → otherHandle record h ∨ carried h
  raised : ∀ h ∈ raised, (record.handles.health = some h ∧ record'.handles.health = none)
    ∨ otherHandle record h ∨ carried h

theorem Careful.of_handles {record record' : ServiceRecord} (h : record'.handles = record.handles) :
    Careful carried record record' [] where
  health := Or.inr (congrArg (·.health) h)
  other := fun _ hother => Or.inl (by rwa [otherHandle, h] at hother)
  raised := fun _ hmem => (nomatch hmem)

/-- A change of a run that makes no health handle. -/
structure CarefulOn (carried : HandleId → Prop) (r r' : RunRecord) (raised : List HandleId) :
    Prop where
  health : ∀ (name : String) record', r'.services[name]? = some record' →
    record'.handles.health = none
      ∨ ∃ record, r.services[name]? = some record ∧ record'.handles.health = record.handles.health
  other : ∀ (name : String) record', r'.services[name]? = some record' →
    ∀ h, otherHandle record' h →
      (∃ record, r.services[name]? = some record ∧ otherHandle record h) ∨ carried h
  raised : ∀ h ∈ raised, ((∃ (name : String) (record : ServiceRecord),
        r.services[name]? = some record ∧ otherHandle record h) ∨ carried h)
      ∨ ∃ (name : String) (record : ServiceRecord), r.services[name]? = some record
        ∧ record.handles.health = some h
        ∧ ∀ record', r'.services[name]? = some record' → record'.handles.health = none

/-- A run whose services are as they were. -/
theorem CarefulOn.of_services {r r' : RunRecord} (h : r'.services = r.services) :
    CarefulOn carried r r' [] where
  health := fun _ record' hget => Or.inr ⟨record', h ▸ hget, rfl⟩
  other := fun _ record' hget _ hother => Or.inl ⟨record', h ▸ hget, hother⟩
  raised := fun _ hmem => (nomatch hmem)

/-- A change of one service. -/
theorem CarefulOn.of_one {r r' : RunRecord} {service : String}
    {f : ServiceRecord → ServiceRecord × List HandleId} {raised : List HandleId}
    (hservices : ∀ name : String, r'.services[name]?
      = if name = service then (r.services[name]?).map (fun record => (f record).1)
        else r.services[name]?)
    (hraised : ∀ h ∈ raised, ∃ record, r.services[service]? = some record ∧ h ∈ (f record).2)
    (hf : ∀ record, r.services[service]? = some record →
      Careful carried record (f record).1 (f record).2) :
    CarefulOn carried r r' raised where
  health := fun name record' hget => by
    rw [hservices name] at hget
    split at hget
    · next heq =>
        subst heq
        obtain ⟨record, hrecord, rfl⟩ := Option.map_eq_some_iff.mp hget
        exact (hf record hrecord).health.imp_right (fun hsame => ⟨record, hrecord, hsame⟩)
    · exact Or.inr ⟨record', hget, rfl⟩
  other := fun name record' hget h hother => by
    rw [hservices name] at hget
    split at hget
    · next heq =>
        subst heq
        obtain ⟨record, hrecord, rfl⟩ := Option.map_eq_some_iff.mp hget
        exact ((hf record hrecord).other h hother).imp_left (fun hsame => ⟨record, hrecord, hsame⟩)
    · exact Or.inl ⟨record', hget, hother⟩
  raised := fun h hmem => by
    obtain ⟨record, hrecord, hmem⟩ := hraised h hmem
    rcases (hf record hrecord).raised h hmem with ⟨hhealth, hnone⟩ | hother | hcarried
    · refine Or.inr ⟨service, record, hrecord, hhealth, fun record' hget => ?_⟩
      rw [hservices service, if_pos rfl, hrecord] at hget
      cases hget
      exact hnone
    · exact Or.inl (Or.inl ⟨service, record, hrecord, hother⟩)
    · exact Or.inl (Or.inr hcarried)

theorem carefulOn_updateService {r : RunRecord} {service : String}
    {f : ServiceRecord → ServiceRecord × List HandleId}
    (hf : ∀ record, Careful carried record (f record).1 (f record).2) :
    CarefulOn carried r (updateService r service f).1 (updateService r service f).2 := by
  refine CarefulOn.of_one (updateService_services r service f) (fun h hmem => ?_)
    (fun record _ => hf record)
  rw [updateService] at hmem
  split at hmem
  · next record hrecord => exact ⟨record, hrecord, hmem⟩
  · cases hmem

theorem carefulOn_updateAndRecompute {r : RunRecord} {service : String}
    {f : ServiceRecord → ServiceRecord × Option DaemonEvent}
    (hf : ∀ record, r.services[service]? = some record →
      (f record).1.handles = record.handles) :
    CarefulOn carried r (updateAndRecompute r service f).1 [] :=
  CarefulOn.of_one (f := fun record => ((f record).1, []))
    (updateAndRecompute_services r service f) (fun _ hmem => (nomatch hmem))
    (fun record hrecord => .of_handles (hf record hrecord))

/-- A change of every record that keeps its handles. -/
theorem carefulOn_map {r : RunRecord} {f : String → ServiceRecord → ServiceRecord}
    {r' : RunRecord} (hservices : r'.services = r.services.map f)
    (hf : ∀ name record, (f name record).handles = record.handles) :
    CarefulOn carried r r' [] where
  health := fun name record' hget => by
    rw [hservices, Std.ExtTreeMap.getElem?_map] at hget
    obtain ⟨record, hrecord, rfl⟩ := Option.map_eq_some_iff.mp hget
    exact Or.inr ⟨record, hrecord, congrArg (·.health) (hf name record)⟩
  other := fun name record' hget h hother => by
    rw [hservices, Std.ExtTreeMap.getElem?_map] at hget
    obtain ⟨record, hrecord, rfl⟩ := Option.map_eq_some_iff.mp hget
    rw [otherHandle, hf name record] at hother
    exact Or.inl ⟨record, hrecord, hother⟩
  raised := fun _ hmem => (nomatch hmem)

/-- Records that are dropped, or replaced by one without handles. -/
theorem carefulOn_dropped {r r' : RunRecord} {raised : List HandleId}
    (hservices : ∀ (name : String) record', r'.services[name]? = some record' →
      record'.handles = ⟨none, none, none⟩ ∨ r.services[name]? = some record')
    (hraised : ∀ h ∈ raised, ∃ (name : String) (record : ServiceRecord),
      r.services[name]? = some record ∧ h ∈ liveHandles record
        ∧ ∀ record', r'.services[name]? = some record' → record'.handles = ⟨none, none, none⟩) :
    CarefulOn carried r r' raised where
  health := fun name record' hget => by
    rcases hservices name record' hget with hbare | hsame
    · exact Or.inl (by rw [hbare])
    · exact Or.inr ⟨record', hsame, rfl⟩
  other := fun name record' hget h hother => by
    rcases hservices name record' hget with hbare | hsame
    · rw [otherHandle, hbare] at hother
      exact hother.elim (fun h => nomatch h) (fun h => nomatch h)
    · exact Or.inl ⟨record', hsame, hother⟩
  raised := fun h hmem => by
    obtain ⟨name, record, hrecord, hlive, hbare⟩ := hraised h hmem
    simp only [liveHandles, List.mem_append, Option.mem_toList] at hlive
    rcases hlive with (hhealth | hwatch) | hcapture
    · exact Or.inr ⟨name, record, hrecord, hhealth, fun record' hget => by rw [hbare record' hget]⟩
    · exact Or.inl (Or.inl ⟨name, record, hrecord, Or.inl hwatch⟩)
    · exact Or.inl (Or.inl ⟨name, record, hrecord, Or.inr hcapture⟩)

-- ── record by record ──────────────────────────────────────────────────────────

theorem careful_stopWatch (record : ServiceRecord) :
    Careful carried record (stopWatch record).1 (stopWatch record).2 where
  health := Or.inr rfl
  other := fun _ hother => Or.inl (hother.elim (fun h => nomatch h) Or.inr)
  raised := fun _ hmem => Or.inr (Or.inl (Or.inl (Option.mem_toList.mp hmem)))

theorem careful_stopApiCapture {record before : ServiceRecord}
    (h : record.handles = before.handles) :
    Careful carried before (stopApiCapture record).1 (stopApiCapture record).2 where
  health := Or.inr (congrArg (·.health) h)
  other := fun _ hother =>
    Or.inl (hother.elim (fun hw => Or.inl (h ▸ hw)) (fun h => nomatch h))
  raised := fun _ hmem => Or.inr (Or.inl (Or.inr (h ▸ Option.mem_toList.mp hmem)))

theorem careful_watchSyncBegin (record : ServiceRecord) :
    Careful carried record (watchSyncBegin record).1 (watchSyncBegin record).2 := by
  rw [watchSyncBegin]
  split
  · exact careful_stopWatch record
  · exact .of_handles rfl

theorem careful_watchSyncKeep {fresh : HandleId} (hfresh : carried fresh)
    (record : ServiceRecord) :
    Careful carried record (watchSyncKeep fresh record)
      (if watchSyncKeeps record then [] else [fresh]) := by
  rw [watchSyncKeep]
  split
  · refine ⟨Or.inr rfl, fun h hother => ?_, fun h hmem => (by cases hmem)⟩
    rcases hother with hwatch | hcapture
    · exact Or.inr (Option.some.inj hwatch ▸ hfresh)
    · exact Or.inl (Or.inr hcapture)
  · refine ⟨Or.inr rfl, fun h hother => Or.inl hother, fun h hmem => ?_⟩
    rw [List.mem_singleton.mp hmem]
    exact Or.inr (Or.inr hfresh)

theorem careful_captureSyncBegin (record : ServiceRecord) :
    Careful carried record (captureSyncBegin record).1 (captureSyncBegin record).2 := by
  rw [captureSyncBegin]
  split
  · exact careful_stopApiCapture rfl
  · exact .of_handles rfl

theorem careful_captureSyncKeep {fresh : HandleId} (hfresh : carried fresh)
    (record : ServiceRecord) :
    Careful carried record (captureSyncKeep fresh record)
      (if captureSyncKeeps record then [] else [fresh]) := by
  rw [captureSyncKeep]
  split
  · refine ⟨Or.inr rfl, fun h hother => ?_, fun h hmem => (by cases hmem)⟩
    rcases hother with hwatch | hcapture
    · exact Or.inl (Or.inl hwatch)
    · exact Or.inr (Option.some.inj hcapture ▸ hfresh)
  · refine ⟨Or.inr rfl, fun h hother => Or.inl hother, fun h hmem => ?_⟩
    rw [List.mem_singleton.mp hmem]
    exact Or.inr (Or.inr hfresh)

theorem careful_applyPrepared (record : ServiceRecord) (prepared : PreparedService) :
    Careful carried record (applyPreparedToRuntime record prepared false).1
      (applyPreparedToRuntime record prepared false).2 := by
  rw [applyPreparedToRuntime_eq]
  split
  · exact careful_stopApiCapture rfl
  · exact .of_handles rfl

theorem beginRestartRecord_handles (runId service now : String) (record : ServiceRecord) :
    (beginRestartRecord runId service now record).1.handles = record.handles := by
  simp [beginRestartRecord]

theorem failedRecord_handles (runId service now reason : String) (record : ServiceRecord) :
    (failedRecord runId service now reason record).1.handles = record.handles := by
  simp [failedRecord]

/-- A service that has a monitor, or wants none, keeps its handles when it is ready. -/
theorem readyRecord_handles {runId service now : String} {fresh : HandleId}
    {record : ServiceRecord} (h : needsMonitor record = false) :
    (readyRecord runId service now fresh record).1.handles = record.handles := by
  have hset : needsMonitor (setLastFailure (setServiceState runId service now record .ready).1 none)
      = false := by
    rw [needsMonitor] at h ⊢
    simpa using h
  simp only [readyRecord, hset]
  simp

/-- Operations of a task that carries the handles it places. -/
def fairOp (carried : HandleId → Prop) : RunOp → Prop
  | .markReady .. => False
  | .keepWatcher _ fresh | .keepCapture _ fresh => carried fresh
  | .store _ record => record.handles = ⟨none, none, none⟩
  | _ => True

/-- **NO LOCKED STEP TAKES A HANDLE** that is not its own. -/
theorem careful_apply {op : RunOp} (hfair : fairOp carried op) (r : RunRecord) :
    CarefulOn carried r (op.apply r).1 (op.apply r).2 := by
  cases op with
  | markReady service now fresh => exact hfair.elim
  | beginRestart service now =>
      exact carefulOn_updateAndRecompute
        (fun record _ => beginRestartRecord_handles r.runId service now record)
  | markFailed service now reason =>
      exact carefulOn_updateAndRecompute
        (fun record _ => failedRecord_handles r.runId service now reason record)
  | transition service now change =>
      cases change with
      | healthy => exact .of_services rfl
      | recoverToReady =>
          refine carefulOn_updateAndRecompute (fun record _ => ?_)
          rw [recoveredRecord]
          split
          · simp
          · rfl
      | markDegraded =>
          refine carefulOn_updateAndRecompute (fun record _ => ?_)
          rw [degradedRecord]
          split
          · simp
          · rfl
  | restarted service now => exact carefulOn_updateService (fun record => .of_handles rfl)
  | compareHash service hash =>
      refine carefulOn_updateService (fun record => .of_handles ?_)
      show (compareHashRecord hash record).handles = record.handles
      rw [compareHashRecord]
      split <;> rfl
  | syncWatcher service => exact carefulOn_updateService careful_watchSyncBegin
  | keepWatcher service fresh => exact carefulOn_updateService (careful_watchSyncKeep hfair)
  | syncCapture service => exact carefulOn_updateService careful_captureSyncBegin
  | keepCapture service fresh => exact carefulOn_updateService (careful_captureSyncKeep hfair)
  | setWatchPaused service value =>
      have hpaused : ∀ record, (pausedRecord value record).handles = record.handles := by
        intro record
        rw [pausedRecord]
        split <;> rfl
      cases service with
      | some service => exact carefulOn_updateService (fun record => .of_handles (hpaused record))
      | none => exact carefulOn_map rfl (fun _ record => hpaused record)
  | applyPrepared service prepared =>
      exact carefulOn_updateService (fun record => careful_applyPrepared record prepared)
  | store service record =>
      refine carefulOn_dropped (fun name record' hget => ?_) (fun h hmem => ?_)
      · rw [RunOp.apply, replaceServiceRecord_services] at hget
        split at hget
        · cases hget
          exact Or.inl hfair
        · exact Or.inr hget
      · simp only [RunOp.apply, replaceServiceRecord] at hmem
        split at hmem
        · next previous hprevious =>
            refine ⟨service, previous, hprevious, hmem, fun record' hget => ?_⟩
            rw [RunOp.apply, replaceServiceRecord_services, if_pos rfl] at hget
            cases hget
            exact hfair
        · cases hmem
  | removeMissing removed =>
      have hservices : ∀ name : String,
          (removeServicesMissingFromStack r removed).1.services[name]?
            = if name ∈ removed then none else r.services[name]? := by
        intro name
        rw [removeServicesMissingFromStack]
        split
        · next hnil => rw [hnil, if_neg List.not_mem_nil]
        · rw [recomputeRunState_services]
          split
          · next hmem =>
              cases hget : r.services[name]? <;> simp [Std.ExtTreeMap.getElem?_filter, hget, hmem]
          · next hmem =>
              cases hget : r.services[name]? <;> simp [Std.ExtTreeMap.getElem?_filter, hget, hmem]
      refine carefulOn_dropped (fun name record' hget => ?_) (fun h hmem => ?_)
      · rw [RunOp.apply, hservices name] at hget
        split at hget
        · cases hget
        · exact Or.inr hget
      · simp only [RunOp.apply, removeServicesMissingFromStack] at hmem
        split at hmem
        · cases hmem
        · obtain ⟨name, hname, hmem⟩ := List.mem_flatMap.mp hmem
          split at hmem
          · next record hrecord =>
              refine ⟨name, record, hrecord, hmem, fun record' hget => ?_⟩
              rw [RunOp.apply, hservices name, if_pos hname] at hget
              cases hget
          · cases hmem
  | updateResources baseEnv => exact .of_services (updateRunLaunchResources_services r baseEnv)
  | recompute => exact .of_services (recomputeRunState_services r)
  | stopHandles =>
      have hservices : ∀ (name : String) record',
          (r.services.map (fun _ record => bareRecord record))[name]? = some record' →
            record'.handles = ⟨none, none, none⟩ := by
        intro name record' hget
        rw [Std.ExtTreeMap.getElem?_map] at hget
        obtain ⟨record, -, rfl⟩ := Option.map_eq_some_iff.mp hget
        rfl
      refine carefulOn_dropped (fun name record' hget => Or.inl (hservices name record' hget))
        (fun h hmem => ?_)
      obtain ⟨⟨name, record⟩, hrecord, hmem⟩ := List.mem_flatMap.mp hmem
      exact ⟨name, record, Std.ExtTreeMap.mem_toList_iff_getElem?_eq_some.mp hrecord, hmem,
        hservices name⟩
  | stopAll now => exact carefulOn_map rfl (fun _ _ => by simp)
  | reconcile status =>
      refine carefulOn_map rfl (fun name record => ?_)
      split <;> rfl

end Ops

-- ── accesses to the world ─────────────────────────────────────────────────────

section Accesses

variable {bound : HandleId} {w : World} {carried : HandleId → Prop}

/-- The records of a world in which one run was written. -/
theorem stored_insert {id : String} {r r' : RunRecord} {raised : List HandleId}
    {run service : String} {record : ServiceRecord} (hget : w.runs[id]? = some r) :
    Stored { w with runs := w.runs.insert id r', raised := raised } run service record
      ↔ (run = id ∧ r'.services[service]? = some record) ∨ (run ≠ id ∧ Stored w run service record) := by
  by_cases heq : run = id
  · subst heq
    simp [Stored]
  · simp [Stored, Std.ExtTreeMap.getElem?_insert, heq, Ne.symm heq]

theorem owned_lock {id : String} {op : RunOp} (h : Owned bound w carried)
    (hcareful : ∀ r, w.runs[id]? = some r → CarefulOn carried r (op.apply r).1 (op.apply r).2) :
    Owned bound (w.lock id op) carried := by
  rw [World.lock]
  cases hget : w.runs[id]? with
  | none => exact h
  | some r =>
      obtain ⟨hhealth, hother, hraised⟩ := hcareful r hget
      have hbefore : ∀ {service record}, r.services[service]? = some record →
          Stored w id service record := fun hrecord => ⟨r, hget, hrecord⟩
      refine h.shrink ?_ ?_ ?_
      · intro run service record' hd hstored hhd
        rcases (stored_insert hget).mp hstored with ⟨rfl, hrecord'⟩ | ⟨-, hstored⟩
        · rcases hhealth service record' hrecord' with hnone | ⟨record, hrecord, hsame⟩
          · rw [hnone] at hhd
            cases hhd
          · exact ⟨record, hbefore hrecord, hsame ▸ hhd⟩
        · exact ⟨record', hstored, hhd⟩
      · rintro hd (⟨run, service, record', hstored, hrecord'⟩ | hglobal)
        · rcases (stored_insert hget).mp hstored with ⟨rfl, hget'⟩ | ⟨-, hstored⟩
          · rcases hother service record' hget' hd hrecord' with ⟨record, hrecord, hd'⟩ | hcarried
            · exact Or.inl (Or.inl ⟨run, service, record, hbefore hrecord, hd'⟩)
            · exact Or.inr hcarried
          · exact Or.inl (Or.inl ⟨run, service, record', hstored, hrecord'⟩)
        · exact Or.inl (Or.inr hglobal)
      · intro hd hmem
        rcases List.mem_append.mp hmem with hmem | hmem
        · exact Or.inl hmem
        · right
          rcases hraised hd hmem with hforeign | ⟨name, record, hrecord, hhd, hnone⟩
          · rcases hforeign with ⟨name, record, hrecord, hd'⟩ | hother
            · exact Or.inl (Or.inl (Or.inl ⟨id, name, record, hbefore hrecord, hd'⟩))
            · exact Or.inl (Or.inr hother)
          · refine Or.inr ⟨id, name, record, hbefore hrecord, hhd, fun record' hstored hhd' => ?_⟩
            rcases (stored_insert hget).mp hstored with ⟨-, hget'⟩ | ⟨hne, -⟩
            · rw [hnone record' hget'] at hhd'
              cases hhd'
            · exact hne rfl

theorem owned_fairOp {id : String} {op : RunOp} (h : Owned bound w carried)
    (hfair : fairOp carried op) : Owned bound (w.lock id op) carried :=
  owned_lock h (fun r _ => careful_apply hfair r)

/-- A service becomes ready and gets a new monitor. -/
theorem owned_markReady {id service now : String} (h : Owned bound w carried) :
    Owned (bound + 1) (w.lock id (.markReady service now bound)) carried := by
  rw [World.lock]
  cases hget : w.runs[id]? with
  | none => exact h.allocate.carries (fun _ => Or.inl)
  | some r =>
      -- each record has the handles it had, or got the new health handle
      have hstored : ∀ {run name record'}, Stored
          { w with
            runs := w.runs.insert id ((RunOp.markReady service now bound).apply r).1
            raised := w.raised ++ ((RunOp.markReady service now bound).apply r).2 }
          run name record' →
          (∃ record, Stored w run name record ∧ record'.handles = record.handles)
            ∨ (run = id ∧ name = service ∧ record'.handles.health = some bound
              ∧ ∃ record, Stored w run name record
                ∧ ∀ hd, otherHandle record' hd → otherHandle record hd) := by
        intro run name record' hs
        rcases (stored_insert hget).mp hs with ⟨rfl, hget'⟩ | ⟨-, hs⟩
        · have hservices : (updateAndRecompute r service
              (readyRecord r.runId service now bound)).1.services[name]? = some record' := hget'
          rw [updateAndRecompute_services] at hservices
          split at hservices
          · next heq =>
              subst heq
              obtain ⟨record, hrecord, rfl⟩ := Option.map_eq_some_iff.mp hservices
              cases hneeds : needsMonitor record with
              | false => exact Or.inl ⟨record, ⟨r, hget, hrecord⟩, readyRecord_handles hneeds⟩
              | true =>
                  have hset : needsMonitor (setLastFailure
                      (setServiceState r.runId name now record .ready).1 none) = true := by
                    rw [needsMonitor] at hneeds ⊢
                    simpa using hneeds
                  refine Or.inr ⟨rfl, rfl, ?_, record, ⟨r, hget, hrecord⟩, fun hd hother => ?_⟩
                  · simp only [readyRecord, hset, if_true]
                  · simpa only [otherHandle, readyRecord, hset, if_true, setLastFailure_handles,
                      setServiceState_handles] using hother
          · exact Or.inl ⟨record', ⟨r, hget, hservices⟩, rfl⟩
        · exact Or.inl ⟨record', hs, rfl⟩
      have hforeign : ∀ {hd}, Foreign
          { w with
            runs := w.runs.insert id ((RunOp.markReady service now bound).apply r).1
            raised := w.raised ++ ((RunOp.markReady service now bound).apply r).2 } hd →
          Foreign w hd := by
        rintro hd (⟨run, name, record', hs, hother⟩ | hglobal)
        · rcases hstored hs with ⟨record, hrecord, hsame⟩ | ⟨-, -, -, record, hrecord, hother'⟩
          · rw [otherHandle, hsame] at hother
            exact Or.inl ⟨run, name, record, hrecord, hother⟩
          · exact Or.inl ⟨run, name, record, hrecord, hother' hd hother⟩
        · exact Or.inr hglobal
      have hraised : ∀ {hd}, hd ∈ w.raised ++ ((RunOp.markReady service now bound).apply r).2 →
          hd ∈ w.raised := by
        intro hd hmem
        rcases List.mem_append.mp hmem with hmem | hmem
        · exact hmem
        · cases hmem
      constructor
      · intro run name record' hd hs hhd
        rcases hstored hs with ⟨record, hrecord, hsame⟩ | ⟨-, -, hnew, -⟩
        · rw [hsame] at hhd
          exact Nat.lt_succ_of_lt (h.health_lt hrecord hhd)
        · rw [hnew] at hhd
          cases hhd
          exact Nat.lt_succ_self _
      · intro hd hother
        exact Nat.lt_succ_of_lt (h.other_lt (hother.imp_left hforeign))
      · intro hd hmem
        exact Nat.lt_succ_of_lt (h.raised_lt (hraised hmem))
      · intro run name record' hd hs hhd hother
        rcases hstored hs with ⟨record, hrecord, hsame⟩ | ⟨-, -, hnew, -⟩
        · rw [hsame] at hhd
          exact h.apart hrecord hhd (hother.imp_left hforeign)
        · rw [hnew] at hhd
          cases hhd
          exact absurd (h.other_lt (hother.imp_left hforeign)) (Nat.lt_irrefl _)
      · intro run name record' run2 name2 record2' hd hs hs2 hhd hhd2
        rcases hstored hs with ⟨record, hrecord, hsame⟩ | ⟨hrun, hname, hnew, -⟩
        · rcases hstored hs2 with ⟨record2, hrecord2, hsame2⟩ | ⟨-, -, hnew2, -⟩
          · rw [hsame] at hhd
            rw [hsame2] at hhd2
            exact h.single hrecord hrecord2 hhd hhd2
          · rw [hsame] at hhd
            rw [hnew2] at hhd2
            cases hhd2
            exact absurd (h.health_lt hrecord hhd) (Nat.lt_irrefl _)
        · rcases hstored hs2 with ⟨record2, hrecord2, hsame2⟩ | ⟨hrun2, hname2, -, -⟩
          · rw [hnew] at hhd
            cases hhd
            rw [hsame2] at hhd2
            exact absurd (h.health_lt hrecord2 hhd2) (Nat.lt_irrefl _)
          · exact ⟨hrun.trans hrun2.symm, hname.trans hname2.symm⟩
      · intro run name record' hd hs hhd hmem
        rcases hstored hs with ⟨record, hrecord, hsame⟩ | ⟨-, -, hnew, -⟩
        · rw [hsame] at hhd
          exact h.clear hrecord hhd (hraised hmem)
        · rw [hnew] at hhd
          cases hhd
          exact absurd (h.raised_lt (hraised hmem)) (Nat.lt_irrefl _)

/-- The globals' handles only shrink or come from a task. -/
theorem owned_globals {globals : BTreeMap GlobalRecord} {raised : List HandleId}
    (h : Owned bound w carried)
    (hglobals : ∀ (key : String) (global' : GlobalRecord), globals[key]? = some global' →
      ∀ hd ∈ liveHandles global'.service, Foreign w hd ∨ carried hd)
    (hraised : ∀ hd ∈ raised, hd ∈ w.raised ∨ Foreign w hd ∨ carried hd) :
    Owned bound { w with globals := globals, raised := raised } carried := by
  refine h.shrink (fun hs hhd => ⟨_, hs, hhd⟩) ?_ ?_
  · rintro hd (hrun | ⟨key, global', hget, hlive⟩)
    · exact Or.inl (Or.inl hrun)
    · exact hglobals key global' hget hd hlive
  · intro hd hmem
    rcases hraised hd hmem with hmem | hforeign
    · exact Or.inl hmem
    · exact Or.inr (Or.inl hforeign)

theorem liveHandles_watchSyncBegin (record : ServiceRecord) :
    (∀ h ∈ liveHandles (watchSyncBegin record).1, h ∈ liveHandles record)
      ∧ ∀ h ∈ (watchSyncBegin record).2, h ∈ liveHandles record := by
  rw [watchSyncBegin]
  split
  · constructor
    · intro h hmem
      simp only [liveHandles, stopWatch, List.mem_append, Option.mem_toList] at hmem ⊢
      exact hmem.imp_left (fun hmem => hmem.elim Or.inl (fun h => by cases h))
    · intro h hmem
      exact List.mem_append_left _ (List.mem_append_right _ hmem)
  · exact ⟨fun h hmem => hmem, fun h hmem => (by cases hmem)⟩

theorem liveHandles_watchSyncKeep {fresh h : HandleId} (record : ServiceRecord)
    (hmem : h ∈ liveHandles (watchSyncKeep fresh record)) :
    h ∈ liveHandles record ∨ h = fresh := by
  rw [watchSyncKeep] at hmem
  split at hmem
  · simp only [liveHandles, List.mem_append, Option.mem_toList] at hmem ⊢
    rcases hmem with (hhealth | hwatch) | hcapture
    · exact Or.inl (Or.inl (Or.inl hhealth))
    · exact Or.inr (Option.some.inj hwatch).symm
    · exact Or.inl (Or.inr hcapture)
  · exact Or.inl hmem

/-- Operations of a task that carries the handle it places. -/
def fairGlobalOp (carried : HandleId → Prop) : GlobalOp → Prop
  | .keepWatcher fresh => carried fresh
  | _ => True

theorem owned_lockGlobal {key : String} {op : GlobalOp} (h : Owned bound w carried)
    (hfair : fairGlobalOp carried op) : Owned bound (w.lockGlobal key op) carried := by
  rw [World.lockGlobal]
  cases hget : w.globals[key]? with
  | none => exact h
  | some global =>
      have hlive : ∀ hd ∈ liveHandles global.service, Foreign w hd ∨ carried hd :=
        fun hd hmem => Or.inl (Or.inr ⟨key, global, hget, hmem⟩)
      have hop : (∀ hd ∈ liveHandles (op.apply global).1.service, Foreign w hd ∨ carried hd)
          ∧ ∀ hd ∈ (op.apply global).2, Foreign w hd ∨ carried hd := by
        cases op with
        | beginRestart now | markReady | markFailed reason =>
            exact ⟨hlive, fun hd hmem => (by cases hmem)⟩
        | compareHash hash =>
            simp only [GlobalOp.apply]
            split
            · refine ⟨fun hd hmem => hlive hd ?_, fun hd hmem => (by cases hmem)⟩
              rw [compareHashRecord] at hmem
              split at hmem <;> exact hmem
            · exact ⟨hlive, fun hd hmem => (by cases hmem)⟩
        | syncWatcher =>
            obtain ⟨hkept, hstopped⟩ := liveHandles_watchSyncBegin global.service
            exact ⟨fun hd hmem => hlive hd (hkept hd hmem), fun hd hmem => hlive hd (hstopped hd hmem)⟩
        | keepWatcher fresh =>
            constructor
            · intro hd hmem
              rcases liveHandles_watchSyncKeep global.service hmem with hmem | rfl
              · exact hlive hd hmem
              · exact Or.inr hfair
            · intro hd hmem
              simp only [GlobalOp.apply] at hmem
              split at hmem
              · cases hmem
              · rw [List.mem_singleton.mp hmem]
                exact Or.inr hfair
      refine owned_globals h (fun key' global' hget' hd hmem => ?_) (fun hd hmem => ?_)
      · rw [Std.ExtTreeMap.getElem?_insert] at hget'
        split at hget'
        · cases hget'
          exact hop.1 hd hmem
        · exact Or.inl (Or.inr ⟨key', global', hget', hmem⟩)
      · exact (List.mem_append.mp hmem).imp_right (hop.2 hd)

theorem owned_upsertGlobal {global : GlobalRecord} (h : Owned bound w carried)
    (hbare : global.service.handles = ⟨none, none, none⟩) :
    Owned bound (w.upsertGlobal global) carried := by
  refine owned_globals h (fun key global' hget hd hmem => ?_) (fun hd hmem => ?_)
  · rw [Std.ExtTreeMap.getElem?_insert] at hget
    split at hget
    · cases hget
      rw [liveHandles, hbare] at hmem
      exact nomatch hmem
    · exact Or.inl (Or.inr ⟨key, global', hget, hmem⟩)
  · rcases List.mem_append.mp hmem with hmem | hmem
    · exact Or.inl hmem
    · split at hmem
      · next previous hget => exact Or.inr (Or.inl (Or.inr ⟨_, previous, hget, hmem⟩))
      · exact nomatch hmem

/-- Runs are removed, or one without services is opened. -/
theorem owned_runs {runs : BTreeMap RunRecord} {manifests : BTreeMap PersistedRun}
    (h : Owned bound w carried)
    (hruns : ∀ (id : String) (r : RunRecord), runs[id]? = some r →
      w.runs[id]? = some r ∨ r.services = ∅) :
    Owned bound { w with runs := runs, manifests := manifests } carried := by
  have hstored : ∀ {run service record}, Stored { w with runs := runs, manifests := manifests }
      run service record → Stored w run service record := by
    rintro run service record ⟨r, hget, hrecord⟩
    rcases hruns run r hget with hsame | hempty
    · exact ⟨r, hsame, hrecord⟩
    · rw [hempty] at hrecord
      simp at hrecord
  refine h.shrink (fun hs hhd => ⟨_, hstored hs, hhd⟩) ?_ (fun hd hmem => Or.inl hmem)
  rintro hd (⟨run, service, record, hs, hother⟩ | hglobal)
  · exact Or.inl (Or.inl ⟨run, service, record, hstored hs, hother⟩)
  · exact Or.inl (Or.inr hglobal)

/-- Accesses of a task that carries the handles it places. -/
def fair (carried : HandleId → Prop) : Effect → Prop
  | .lock _ op => fairOp carried op
  | .lockGlobal _ op => fairGlobalOp carried op
  | .upsertGlobal global => global.service.handles = ⟨none, none, none⟩
  | .createRun run => run.services = ∅
  | .raise handle => carried handle
  | .allocate => False
  | _ => True

theorem owned_apply {e : Effect} (h : Owned bound w carried) (hfair : fair carried e) :
    Owned bound (e.apply w) carried := by
  cases e with
  | lock id op => exact owned_fairOp h hfair
  | lockGlobal key op => exact owned_lockGlobal h hfair
  | upsertGlobal global => exact owned_upsertGlobal h hfair
  | createRun run =>
      refine owned_runs h (fun id r hget => ?_)
      rw [Std.ExtTreeMap.getElem?_insert] at hget
      split at hget
      · cases hget
        exact Or.inr hfair
      · exact Or.inl hget
  | raise handle =>
      refine owned_globals h
        (fun key global hget hd hmem => Or.inl (Or.inr ⟨key, global, hget, hmem⟩)) (fun hd hmem => ?_)
      rcases List.mem_append.mp hmem with hmem | hmem
      · exact Or.inl hmem
      · rw [List.mem_singleton.mp hmem]
        exact Or.inr (Or.inr hfair)
  | allocate => exact hfair.elim
  | purge id =>
      refine owned_runs h (fun id' r hget => Or.inl ?_)
      rw [Std.ExtTreeMap.getElem?_erase] at hget
      split at hget
      · exact nomatch hget
      · exact hget
  | collect expired =>
      refine owned_runs h (fun id r hget => Or.inl ?_)
      rw [Std.ExtTreeMap.getElem?_filter'] at hget
      exact (Option.filter_eq_some_iff.mp hget).1
  | storePaused handle value | unit action owner unitName | beginLaunch key
  | writeManifest manifest | writeGlobalManifest manifest | serve => exact h.of_same rfl rfl rfl

theorem lock_nextHandle (w : World) (id : String) (op : RunOp) :
    (w.lock id op).nextHandle = w.nextHandle := by
  rw [World.lock]
  split <;> rfl

theorem lockGlobal_nextHandle (w : World) (key : String) (op : GlobalOp) :
    (w.lockGlobal key op).nextHandle = w.nextHandle := by
  rw [World.lockGlobal]
  split <;> rfl

theorem nextHandle_apply {e : Effect} (hfair : fair carried e) :
    (e.apply w).nextHandle = w.nextHandle := by
  cases e with
  | allocate => exact hfair.elim
  | lock id op => exact lock_nextHandle w id op
  | lockGlobal key op => exact lockGlobal_nextHandle w key op
  | _ => rfl

theorem owned_effects {es : List Effect} (h : Owned bound w carried)
    (hfair : ∀ e ∈ es, fair carried e) :
    Owned bound (es.foldl Effect.apply w) carried
      ∧ (es.foldl Effect.apply w).nextHandle = w.nextHandle := by
  induction es generalizing w with
  | nil => exact ⟨h, rfl⟩
  | cons e es ih =>
      have he := hfair e (List.mem_cons_self ..)
      obtain ⟨howned, hnext⟩ := ih (owned_apply h he)
        (fun e' he' => hfair e' (List.mem_cons_of_mem _ he'))
      exact ⟨howned, hnext.trans (nextHandle_apply he)⟩

end Accesses

-- ── one step ──────────────────────────────────────────────────────────────────

/-- The handle a task made and still has to place. -/
def pendingHandle : Task → Option HandleId
  | .keepWatcher t _ => some t.handle
  | .keepGlobalWatcher t _ => some t.handle
  | _ => none

/-- The handles some task still has to place. -/
def carriedBy (ts : List Task) (h : HandleId) : Prop := ∃ t ∈ ts, pendingHandle t = some h

theorem pendingHandle_resume {k : Cont} {result : Except String Unit} {t' : Task}
    (h : t' ∈ k.resume result) : pendingHandle t' = none := by
  cases resumes_of_mem h <;> rfl

/-- Only the start of a watcher makes a handle that has to be placed. -/
theorem pendingHandle_succ {env : Env} {w : World} {t t' : Task} {h : HandleId}
    (hsucc : Succ env w t t') (hpending : pendingHandle t' = some h) :
    h = w.nextHandle
      ∧ ((∃ run service k, t = .syncWatcher run service k) ∨ ∃ key k, t = .syncGlobalWatcher key k) := by
  have hresume : ∀ {k : Cont} {result : Except String Unit}, t' ∈ k.resume result → False := by
    intro k result hmem
    rw [pendingHandle_resume hmem] at hpending
    exact nomatch hpending
  have hcaller : ∀ {caller : Caller}, t' ∈ caller.resume → False := by
    intro caller hmem
    exact @hresume (.restarted caller) (.ok ()) hmem
  cases hsucc with
  | syncWatcherKeep run service k =>
      exact ⟨(Option.some.inj hpending).symm, Or.inl ⟨run, service, k, rfl⟩⟩
  | syncGlobalWatcherKeep key k =>
      exact ⟨(Option.some.inj hpending).symm, Or.inr ⟨key, k, rfl⟩⟩
  | persistGone hmem | writeResume hmem | persistGlobalGone hmem | writeGlobalResume hmem
  | syncWatcherResume hmem | keepWatcherResume hmem | syncGlobalWatcherResume hmem
  | keepGlobalWatcherResume hmem | syncCaptureResume hmem | keepCaptureResume hmem
  | statusGone hmem | writeStatusResume hmem | listRuns hmem | resumeWatch hmem =>
      exact (hresume hmem).elim
  | restartGone hmem | loadPostInitFailed hmem | restartUnitFailed hmem | waitRestartGone hmem =>
      exact (hcaller hmem).elim
  | ensureGlobalsDone hmem | checkGlobalFailed hmem =>
      cases globalsResumes_of_mem hmem <;> exact nomatch hpending
  | _ => exact nomatch hpending

section Step

variable {env : Env} {w : World} {carried : HandleId → Prop}

/-- The accesses after a readiness wait. -/
theorem owned_deliver {run service now : String} {result : Except String Unit}
    (h : Owned w.nextHandle w carried) :
    Owned (deliver w run service now result).1.nextHandle (deliver w run service now result).1
      carried := by
  cases result with
  | error reason =>
      show Owned (w.lock run _).nextHandle (w.lock run _) carried
      rw [lock_nextHandle]
      exact @owned_fairOp _ w carried run (.markFailed service now reason) h trivial
  | ok _ =>
      have hmarked : Owned (w.nextHandle + 1) (w.lock run (.markReady service now w.nextHandle)) carried :=
        owned_markReady h
      simp only [deliver, markReadyStep]
      split
      · next record hrecord =>
          split
          · show Owned ((w.lock run _).nextHandle + 1) (w.lock run _).allocate carried
            rw [lock_nextHandle]
            exact hmarked.of_same rfl rfl rfl
          · next hneeds =>
              show Owned (w.lock run _).nextHandle (w.lock run _) carried
              rw [lock_nextHandle]
              refine owned_lock h (fun r hr => carefulOn_updateAndRecompute (fun s hs => ?_))
              rw [hr, Option.bind_some, hs] at hrecord
              cases hrecord
              exact readyRecord_handles (Bool.eq_false_iff.mpr hneeds)
      · next hnone =>
          show Owned (w.lock run _).nextHandle (w.lock run _) carried
          rw [lock_nextHandle]
          refine owned_lock h (fun r hr => carefulOn_updateAndRecompute (fun s hs => ?_))
          rw [hr, Option.bind_some, hs] at hnone
          cases hnone

/-- A task that neither makes a handle nor marks a service ready. -/
def Plain : Task → Prop
  | .syncWatcher .. | .syncGlobalWatcher .. | .keepCapture .. | .waitRestart _
  | .waitReadiness .. | .handleReadiness .. => False
  | _ => True

theorem fair_of_plain {t : Task} (hplain : Plain t)
    (hpending : ∀ h, pendingHandle t = some h → carried h) {e : Effect} (hmakes : Makes env w t e) :
    fair carried e := by
  cases hmakes with
  | aside t h =>
      cases e with
      | storePaused | unit | beginLaunch | writeGlobalManifest | serve => trivial
      | _ => exact nomatch h
  | keepWatcher t k | keepWatcherGone t k => exact hpending _ rfl
  | keepGlobalWatcher t k | keepGlobalWatcherGone t k => exact hpending _ rfl
  | checkGlobal target existing rest caller prepared => rfl
  | waitGlobal target prepared createdAt launch start rest caller =>
      simp only [fair, startedGlobal]
      split <;> rfl
  | storeFailedInit job prepared error name rest => rfl
  | storeResult job prepared launch start name rest => cases start <;> rfl
  | createRun job baseEnv hfree => rfl
  | syncWatcher run service k | syncWatcherStart run service k | syncGlobalWatcher key k
  | syncGlobalWatcherStart key k | keepCaptureStart run service k | keepCapture run service k
  | keepCaptureGone run service k | waitRestart r h | waitReadiness run service launch h
  | handleReadiness job launch name rest h => exact hplain.elim
  | _ => trivial

/-- Nothing is carried by what a call returns to. -/
theorem Owned.resumed {bound : HandleId} (h : Owned bound w carried) {k : Cont}
    {result : Except String Unit} :
    Owned bound w (fun hd => carried hd ∨ carriedBy (k.resume result) hd) := by
  refine h.carries (fun hd hcarried => hcarried.elim id ?_)
  rintro ⟨t', hmem, hpending⟩
  rw [pendingHandle_resume hmem] at hpending
  exact nomatch hpending

/-- A watcher is started: its task carries the new handle. -/
theorem Owned.started (h : Owned w.nextHandle w carried) {paused : Bool} {ts : List Task}
    (hts : ∀ t ∈ ts, ∀ hd, pendingHandle t = some hd → hd = w.nextHandle) :
    Owned (w.allocate.storePaused w.nextHandle paused).nextHandle
      (w.allocate.storePaused w.nextHandle paused) (fun hd => carried hd ∨ carriedBy ts hd) := by
  have hmade : Owned (w.nextHandle + 1) (w.allocate.storePaused w.nextHandle paused)
      (fun hd => carried hd ∨ hd = w.nextHandle) := h.allocate.of_same rfl rfl rfl
  refine hmade.carries (fun hd hcarried => hcarried.imp_right ?_)
  rintro ⟨t, hmem, hpending⟩
  exact hts t hmem hd hpending

/-- **WHAT A STEP LEAVES OWNED.** -/
theorem owned_step (h : Owned w.nextHandle w carried) {t : Task}
    (hpending : ∀ hd, pendingHandle t = some hd → carried hd) :
    Owned (t.step env w).1.nextHandle (t.step env w).1
      (fun hd => carried hd ∨ carriedBy (t.step env w).2 hd) := by
  -- no task of a delivered result carries a handle
  have hquiet : ∀ {bound : HandleId} {w' : World} {ts : List Task}, Owned bound w' carried →
      (∀ t' ∈ ts, pendingHandle t' = none) →
      Owned bound w' (fun hd => carried hd ∨ carriedBy ts hd) := by
    intro bound w' ts howned hnone
    refine howned.carries (fun hd hcarried => hcarried.elim id ?_)
    rintro ⟨t', hmem, hpending⟩
    rw [hnone t' hmem] at hpending
    cases hpending
  have hsucc : (∀ run service k, t ≠ .syncWatcher run service k) →
      (∀ key k, t ≠ .syncGlobalWatcher key k) →
      ∀ t' ∈ (t.step env w).2, pendingHandle t' = none := by
    intro hwatcher hglobal t' hmem
    cases hp : pendingHandle t' with
    | none => rfl
    | some hd =>
        rcases (pendingHandle_succ (succ_of_mem hmem) hp).2 with ⟨run, service, k, rfl⟩ | ⟨key, k, rfl⟩
        · exact absurd rfl (hwatcher run service k)
        · exact absurd rfl (hglobal key k)
  by_cases hplain : Plain t
  · have hfair : ∀ e ∈ effects env w t, fair carried e :=
      fun e he => fair_of_plain hplain hpending (makes_of_mem he)
    obtain ⟨howned, hnext⟩ := owned_effects h hfair
    rw [← step_world] at howned hnext
    rw [hnext]
    refine hquiet howned (hsucc ?_ ?_)
    · rintro run service k rfl
      exact hplain.elim
    · rintro key k rfl
      exact hplain.elim
  · cases t with
    | syncWatcher run service k =>
        simp only [Task.step]
        split
        · exact h.resumed
        · split
          · show Owned (w.lock run _).nextHandle _ _
            have hlocked : Owned w.nextHandle (w.lock run (.syncWatcher service)) carried :=
              owned_fairOp h trivial
            rw [lock_nextHandle]
            exact hlocked.resumed
          · next handle paused _ =>
              have hstored : Owned w.nextHandle (w.storePaused handle paused) carried :=
                h.of_same rfl rfl rfl
              exact hstored.resumed
          · split
            · exact h.resumed
            · refine h.started (fun t' hmem hd hp => ?_)
              rcases List.mem_cons.mp hmem with rfl | hmem
              · exact (Option.some.inj hp).symm
              · rw [List.mem_singleton.mp hmem] at hp
                cases hp
    | syncGlobalWatcher key k =>
        simp only [Task.step]
        split
        · exact h.resumed
        · split
          · show Owned (w.lockGlobal key _).nextHandle _ _
            have hlocked : Owned w.nextHandle (w.lockGlobal key .syncWatcher) carried :=
              owned_lockGlobal h trivial
            rw [lockGlobal_nextHandle]
            exact hlocked.resumed
          · next handle paused _ =>
              have hstored : Owned w.nextHandle (w.storePaused handle paused) carried :=
                h.of_same rfl rfl rfl
              exact hstored.resumed
          · split
            · exact h.resumed
            · refine h.started (fun t' hmem hd hp => ?_)
              rcases List.mem_cons.mp hmem with rfl | hmem
              · exact (Option.some.inj hp).symm
              · rw [List.mem_singleton.mp hmem] at hp
                cases hp
    | keepCapture run service k =>
        -- the proxy's handle is placed in the step that makes it
        have hmade : Owned w.allocate.nextHandle w.allocate
            (fun hd => carried hd ∨ hd = w.nextHandle) := h.allocate.of_same rfl rfl rfl
        have hplaced : ∀ {w' : World}, Owned (w.nextHandle + 1) w'
            (fun hd => carried hd ∨ hd = w.nextHandle) → Owned (w.nextHandle + 1) w' carried :=
          fun howned => howned.carries (fun _ => Or.inl)
        simp only [Task.step]
        split
        · exact h.resumed
        · exact h.resumed
        · split
          · exact (hplaced (owned_apply (e := .raise w.nextHandle) hmade (Or.inr rfl))).resumed
          · show Owned (w.allocate.lock run _).nextHandle _ _
            have hlocked : Owned w.allocate.nextHandle
                (w.allocate.lock run (.keepCapture service w.nextHandle))
                (fun hd => carried hd ∨ hd = w.nextHandle) := owned_fairOp hmade (Or.inr rfl)
            rw [lock_nextHandle]
            exact (hplaced hlocked).resumed
    | waitRestart r =>
        refine hquiet ?_ (hsucc (fun _ _ _ h => (by cases h)) (fun _ _ h => (by cases h)))
        simp only [Task.step]
        split
        · exact h
        · exact owned_deliver h
    | waitReadiness run service launch =>
        exact hquiet (owned_deliver h)
          (hsucc (fun _ _ _ h => (by cases h)) (fun _ _ h => (by cases h)))
    | handleReadiness job launch name rest =>
        refine hquiet ?_ (hsucc (fun _ _ _ h => (by cases h)) (fun _ _ h => (by cases h)))
        simp only [Task.step]
        split
        · exact h
        · split
          · exact h
          · exact owned_deliver h
    | _ => exact absurd trivial hplain

end Step

-- ── runs ──────────────────────────────────────────────────────────────────────

/-- The handles of a state of the daemon, each with its owner. -/
def OwnedIn (s : Sys) : Prop := Owned s.1.nextHandle s.1 (carriedBy s.2)

/-- A record of the new process was restored from a saved service. -/
theorem stored_restart {answers : RestoreAnswers} {w : World} {run service : String}
    {record : ServiceRecord} (h : Stored (restartDaemon answers w).1 run service record) :
    ∃ manifest prepared saved p, w.manifests[run]? = some manifest
      ∧ runManifestIsRestorable answers.pathExists manifest = true
      ∧ answers.runPrepared manifest.runId = some prepared
      ∧ manifest.services[service]? = some saved ∧ prepared service = some p
      ∧ record = restoredService saved p := by
  obtain ⟨r, hget, hrecord⟩ := h
  simp only [restartDaemon, Std.ExtTreeMap.getElem?_filterMap', Option.bind_eq_some_iff] at hget
  obtain ⟨manifest, hmanifest, hrestored⟩ := hget
  rw [restoreRun, Option.ite_none_right_eq_some] at hrestored
  obtain ⟨hrestorable, hrestored⟩ := hrestored
  obtain ⟨prepared, hprepared, rfl⟩ := Option.map_eq_some_iff.mp hrestored
  simp only [Std.ExtTreeMap.getElem?_filterMap', Option.bind_eq_some_iff, Option.map_eq_some_iff]
    at hrecord
  obtain ⟨saved, hsaved, p, hp, rfl⟩ := hrecord
  exact ⟨manifest, prepared, saved, p, hmanifest, hrestorable, hprepared, hsaved, hp, rfl⟩

theorem owned_sysStep (s : Sys) (a : Action) (h : OwnedIn s) : OwnedIn (sysStep s a) := by
  cases a with
  | request request =>
      simp only [sysStep]
      split
      · refine h.carries (fun hd hcarried => ?_)
        obtain ⟨t, hmem, hpending⟩ := hcarried
        rcases List.mem_append.mp hmem with hmem | hmem
        · exact ⟨t, hmem, hpending⟩
        · rw [List.mem_singleton.mp hmem] at hpending
          cases request <;> exact nomatch hpending
      · exact h
  | run position env =>
      have hstep : sysStep s (.run position env) = stepAt Task.step s (position, env) := rfl
      cases hget : s.2[position]? with
      | none =>
          rw [hstep, stepAt_none Task.step hget]
          exact h
      | some t =>
          have howned : Owned (t.step env s.1).1.nextHandle (t.step env s.1).1
              (fun hd => carriedBy s.2 hd ∨ carriedBy (t.step env s.1).2 hd) :=
            owned_step h (fun hd hp => ⟨t, List.mem_of_getElem? hget, hp⟩)
          rw [OwnedIn, hstep]
          have hworld : (stepAt Task.step s (position, env)).1 = (t.step env s.1).1 := by
            rw [stepAt_some Task.step hget]
          rw [hworld]
          refine howned.carries (fun hd hcarried => ?_)
          obtain ⟨t', hmem, hpending⟩ := hcarried
          rcases mem_stepAt Task.step hget hmem with hmem | hmem
          · exact Or.inr ⟨t', hmem, hpending⟩
          · exact Or.inl ⟨t', hmem, hpending⟩
  | daemonRestart answers =>
      -- the restored records have no handles, and the new process only has its start
      have hbare : ∀ {run service : String} {record : ServiceRecord},
          Stored (restartDaemon answers s.1).1 run service record →
            record.handles = ⟨none, none, none⟩ := by
        intro run service record hstored
        obtain ⟨manifest, prepared, saved, p, -, -, -, -, -, rfl⟩ := stored_restart hstored
        rfl
      have hglobal : ∀ {key : String} {global : GlobalRecord},
          (restartDaemon answers s.1).1.globals[key]? = some global →
            liveHandles global.service = [] := by
        intro key global hget
        simp only [restartDaemon, Std.ExtTreeMap.getElem?_filterMap', Option.bind_eq_some_iff]
          at hget
        obtain ⟨manifest, -, hrestored⟩ := hget
        rw [restoreGlobal, Option.ite_none_right_eq_some] at hrestored
        obtain ⟨prepared, -, rfl⟩ := Option.map_eq_some_iff.mp hrestored.2
        rfl
      have hhealth : ∀ {run service : String} {record : ServiceRecord} {hd : HandleId},
          Stored (restartDaemon answers s.1).1 run service record →
            record.handles.health ≠ some hd := by
        intro run service record hd hstored hhd
        rw [hbare hstored] at hhd
        exact nomatch hhd
      have hother : ∀ {hd : HandleId}, ¬ (Foreign (restartDaemon answers s.1).1 hd
          ∨ carriedBy (restartDaemon answers s.1).2 hd) := by
        rintro hd ((⟨run, service, record, hstored, hd'⟩ | ⟨key, global, hget, hmem⟩)
          | ⟨t, hmem, hpending⟩)
        · rw [otherHandle, hbare hstored] at hd'
          exact hd'.elim (fun h => nomatch h) (fun h => nomatch h)
        · rw [hglobal hget] at hmem
          exact nomatch hmem
        · rw [List.mem_singleton.mp hmem] at hpending
          exact nomatch hpending
      exact
        { health_lt := fun hstored hhd => absurd hhd (hhealth hstored)
          other_lt := fun hd => absurd hd hother
          raised_lt := fun hmem => nomatch hmem
          apart := fun hstored hhd => absurd hhd (hhealth hstored)
          single := fun hstored _ hhd => absurd hhd (hhealth hstored)
          clear := fun hstored hhd => absurd hhd (hhealth hstored) }

/-- **EVERY HANDLE HAS ONE OWNER**, after every run of the daemon; the flag of a health
    handle that a record holds is clear. -/
theorem owned_reached (as : List Action) : OwnedIn (run sysStep start as) := by
  have hempty : ∀ {run service : String} {record : ServiceRecord},
      ¬ Stored start.1 run service record := by
    rintro run service record ⟨r, hget, -⟩
    simp [start] at hget
  have hforeign : ∀ {hd : HandleId}, ¬ (Foreign start.1 hd ∨ carriedBy start.2 hd) := by
    rintro hd ((⟨run, service, record, hstored, -⟩ | ⟨key, global, hget, -⟩) | ⟨t, hmem, -⟩)
    · exact hempty hstored
    · simp [start] at hget
    · exact nomatch hmem
  refine run_invariant sysStep owned_sysStep as start ?_
  exact
    { health_lt := fun hstored => absurd hstored hempty
      other_lt := fun hd => absurd hd hforeign
      raised_lt := fun hmem => nomatch hmem
      apart := fun hstored => absurd hstored hempty
      single := fun hstored => absurd hstored hempty
      clear := fun hstored => absurd hstored hempty }

end DevstackHandles
