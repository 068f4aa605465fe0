import Devstack.Lib.Machine
import Devstack.Model
import Mathlib.Data.List.Count

/-! # Tail subscriptions — the task that follows a run's logs for its subscribers

    `retain_run_log_tail` and `release_run_log_tail` of `src/daemon/log_tailing.rs`,
    and the subscriptions of `src/daemon/handlers/events.rs` that call them.  The
    bodies of both run under the lock of the registry, so each is one step; the
    handle that `release_run_log_tail` takes out of the registry is aborted later,
    outside the lock.  A tail task may end by itself at any time.

    Count and handle are in one entry, but the entry says nothing of whether its
    task still runs, and a subscriber that finds an entry starts nothing.  So the
    route of this file is: the counts are right in every run (`Inv`), and the task
    is alive exactly in the runs in which no registered task ends by itself
    (`kept_iff`). -/

namespace DevstackTailSubscriptions

open DevstackModel DevstackMachine

-- ── the registry and its callers ──────────────────────────────────────────────

/-- `RunLogTailHandle`; `task` is the place of the task in the list of all tasks. -/
structure RunLogTailHandle where
  subscribers : Nat
  task : Nat
  deriving DecidableEq

/-- A task spawned for `tail_run_logs`. -/
structure TailTask where
  runId : String
  running : Bool
  deriving DecidableEq

/-- How far a request for the events of a run is: before the lock of
    `retain_run_log_tail`, streaming, dropped with its release spawned, released. -/
inductive Stage where
  | waiting
  | retained
  | dropped
  | released
  deriving DecidableEq

/-- A `LogTailSubscription` of a run. -/
structure Subscription where
  runId : String
  stage : Stage
  deriving DecidableEq

/-- The registry (`runs`), the tasks spawned so far, the subscriptions, and the tasks
    whose handles were taken out of the registry and are not aborted yet. -/
structure State where
  runs : BTreeMap RunLogTailHandle
  tasks : List TailTask
  subscriptions : List Subscription
  aborting : List Nat

/-- `RunLogTailRegistry::default`. -/
def fresh : State := ⟨∅, [], [], []⟩

/-- `retain_run_log_tail`. -/
def retainRunLogTail (s : State) (runId : String) : State :=
  match s.runs[runId]? with
  | some handle =>
      { s with runs := s.runs.insert runId { handle with subscribers := handle.subscribers + 1 } }
  | none =>
      { s with
        tasks := s.tasks ++ [⟨runId, true⟩]
        runs := s.runs.insert runId ⟨1, s.tasks.length⟩ }

/-- `release_run_log_tail`, up to the abort behind the lock. -/
def releaseRunLogTail (s : State) (runId : String) : State :=
  match s.runs[runId]? with
  | none => s
  | some entry =>
      if entry.subscribers > 1 then
        { s with runs := s.runs.insert runId { entry with subscribers := entry.subscribers - 1 } }
      else
        { s with runs := s.runs.erase runId, aborting := entry.task :: s.aborting }

/-- What can happen: a request comes in, a subscription goes on, an abort is carried
    out, a task ends by itself. -/
inductive Action where
  | subscribe (runId : String)
  | retain (i : Nat)
  | drop (i : Nat)
  | release (i : Nat)
  | abort (id : Nat)
  | taskEnds (id : Nat)
  deriving DecidableEq

/-- Subscription `i` goes from one stage to the next, with what it does to the registry. -/
def advance (s : State) (i : Nat) (before after : Stage) (call : State → String → State) : State :=
  match s.subscriptions[i]? with
  | some sub =>
      if sub.stage = before then
        { call s sub.runId with
          subscriptions := s.subscriptions.set i { sub with stage := after } }
      else s
  | none => s

/-- Task `id` runs no more. -/
def stopTask (s : State) (id : Nat) : State :=
  { s with tasks := s.tasks.modify id (fun task => { task with running := false }) }

def step (s : State) : Action → State
  | .subscribe runId => { s with subscriptions := s.subscriptions ++ [⟨runId, .waiting⟩] }
  | .retain i => advance s i .waiting .retained retainRunLogTail
  | .drop i => advance s i .retained .dropped (fun s _ => s)
  | .release i => advance s i .dropped .released releaseRunLogTail
  | .abort id =>
      if id ∈ s.aborting then
        { stopTask s id with aborting := s.aborting.erase id }
      else s
  | .taskEnds id => stopTask s id

-- ── what the claim is about ───────────────────────────────────────────────────

/-- Retained, and not yet released. -/
def isLive (runId : String) (sub : Subscription) : Bool :=
  decide (sub.runId = runId ∧ (sub.stage = .retained ∨ sub.stage = .dropped))

/-- The number of live subscriptions of a run. -/
def live (s : State) (runId : String) : Nat := s.subscriptions.countP (isLive runId)

/-- The subscriber count of a run. -/
def count (s : State) (runId : String) : Nat :=
  match s.runs[runId]? with
  | some handle => handle.subscribers
  | none => 0

/-- A task that follows the logs of the run is registered for it. -/
def Tailed (s : State) (runId : String) : Prop :=
  ∃ handle, s.runs[runId]? = some handle ∧ s.tasks[handle.task]? = some ⟨runId, true⟩

/-- The count is that of the live subscriptions, and a run with subscribers is tailed. -/
def TailKept (s : State) : Prop :=
  ∀ runId, count s runId = live s runId ∧ (0 < count s runId → Tailed s runId)

/-- The task that ends by itself is not the one registered for a run. -/
def Undisturbed (s : State) : Action → Prop
  | .taskEnds id => ∀ (runId : String) handle, s.runs[runId]? = some handle → handle.task ≠ id
  | _ => True

-- ── the counts ────────────────────────────────────────────────────────────────

theorem count_some {s : State} {runId : String} {handle : RunLogTailHandle}
    (h : s.runs[runId]? = some handle) : count s runId = handle.subscribers := by
  rw [count, h]

theorem count_none {s : State} {runId : String} (h : s.runs[runId]? = none) :
    count s runId = 0 := by
  rw [count, h]

theorem count_retain (s : State) (run runId : String) :
    count (retainRunLogTail s run) runId = count s runId + if run = runId then 1 else 0 := by
  have hsame : ∀ handle : RunLogTailHandle, run ≠ runId →
      (s.runs.insert run handle)[runId]? = s.runs[runId]? := by
    intro handle hne
    rw [Std.ExtTreeMap.getElem?_insert, if_neg (by simpa using hne)]
  by_cases heq : run = runId
  · subst heq
    rw [if_pos rfl, retainRunLogTail]
    split
    · next handle hget => rw [count_some hget, count]; simp
    · next hget => rw [count_none hget, count]; simp
  · rw [if_neg heq, retainRunLogTail]
    split
    · rw [count, hsame _ heq]; rfl
    · rw [count, hsame _ heq]; rfl

theorem count_release (s : State) (run runId : String) :
    count (releaseRunLogTail s run) runId = count s runId - if run = runId then 1 else 0 := by
  by_cases heq : run = runId
  · subst heq
    rw [if_pos rfl, releaseRunLogTail]
    split
    · next hget => rw [count_none hget]
    · next entry hget =>
        split
        · rw [count_some hget, count]; simp
        · next hone =>
            rw [count_some hget, count]
            simp only [Std.ExtTreeMap.getElem?_erase_self]
            omega
  · rw [if_neg heq, releaseRunLogTail, Nat.sub_zero]
    split
    · rfl
    · split
      · rw [count, Std.ExtTreeMap.getElem?_insert, if_neg (by simpa using heq)]; rfl
      · rw [count, Std.ExtTreeMap.getElem?_erase, if_neg (by simpa using heq)]; rfl

/-- One subscription moves to another stage. -/
theorem live_set {s : State} {i : Nat} {sub : Subscription} (hget : s.subscriptions[i]? = some sub)
    (after : Stage) (runId : String) :
    (s.subscriptions.set i { sub with stage := after }).countP (isLive runId)
      = live s runId - (if isLive runId sub then 1 else 0)
        + if isLive runId { sub with stage := after } then 1 else 0 := by
  obtain ⟨hlt, rfl⟩ := List.getElem?_eq_some_iff.mp hget
  exact List.countP_set hlt

-- ── the registry ──────────────────────────────────────────────────────────────

/-- Every entry counts a subscriber and has a task of its run; a task that is to be
    aborted is in no entry. -/
structure Registered (s : State) : Prop where
  positive : ∀ (runId : String) handle, s.runs[runId]? = some handle → 0 < handle.subscribers
  owns : ∀ (runId : String) handle, s.runs[runId]? = some handle →
    ∃ running, s.tasks[handle.task]? = some ⟨runId, running⟩
  detached : ∀ id ∈ s.aborting, id < s.tasks.length
    ∧ ∀ (runId : String) handle, s.runs[runId]? = some handle → handle.task ≠ id

theorem Registered.of_same {s s' : State} (h : Registered s) (hruns : s'.runs = s.runs)
    (htasks : s'.tasks = s.tasks) (haborting : ∀ id ∈ s'.aborting, id ∈ s.aborting) :
    Registered s' where
  positive := hruns ▸ h.positive
  owns := hruns ▸ htasks ▸ h.owns
  detached := fun id hmem => hruns ▸ htasks ▸ h.detached id (haborting id hmem)

/-- An entry keeps its task and gets another count. -/
theorem Registered.recount {s : State} (h : Registered s) {run : String}
    {handle : RunLogTailHandle} (hget : s.runs[run]? = some handle) {n : Nat} (hn : 0 < n) :
    Registered { s with runs := s.runs.insert run { handle with subscribers := n } } := by
  refine ⟨?_, ?_, ?_⟩
  · intro runId handle' hget'
    rw [Std.ExtTreeMap.getElem?_insert] at hget'
    split at hget'
    · cases hget'; exact hn
    · exact h.positive runId handle' hget'
  · intro runId handle' hget'
    rw [Std.ExtTreeMap.getElem?_insert] at hget'
    split at hget'
    · next heq =>
        cases hget'
        obtain rfl : run = runId := by simpa using heq
        exact h.owns run handle hget
    · exact h.owns runId handle' hget'
  · intro id hmem
    obtain ⟨hlt, hne⟩ := h.detached id hmem
    refine ⟨hlt, fun runId handle' hget' => ?_⟩
    rw [Std.ExtTreeMap.getElem?_insert] at hget'
    split at hget'
    · cases hget'; exact hne run handle hget
    · exact hne runId handle' hget'

/-- A new entry with a new task. -/
theorem Registered.spawn {s : State} (h : Registered s) (run : String) :
    Registered { s with
      tasks := s.tasks ++ [⟨run, true⟩]
      runs := s.runs.insert run ⟨1, s.tasks.length⟩ } := by
  refine ⟨?_, ?_, ?_⟩
  · intro runId handle' hget'
    rw [Std.ExtTreeMap.getElem?_insert] at hget'
    split at hget'
    · cases hget'; exact Nat.one_pos
    · exact h.positive runId handle' hget'
  · intro runId handle' hget'
    rw [Std.ExtTreeMap.getElem?_insert] at hget'
    split at hget'
    · next heq =>
        cases hget'
        obtain rfl : run = runId := by simpa using heq
        exact ⟨true, List.getElem?_concat_length⟩
    · obtain ⟨running, htask⟩ := h.owns runId handle' hget'
      have hlt := (List.getElem?_eq_some_iff.mp htask).1
      exact ⟨running, (List.getElem?_append_left hlt).trans htask⟩
  · intro id hmem
    obtain ⟨hlt, hne⟩ := h.detached id hmem
    have hlonger : id < (s.tasks ++ [TailTask.mk run true]).length := by
      rw [List.length_append]
      exact Nat.lt_add_right 1 hlt
    refine ⟨hlonger, fun runId handle' hget' => ?_⟩
    rw [Std.ExtTreeMap.getElem?_insert] at hget'
    split at hget'
    · cases hget'; exact Nat.ne_of_gt hlt
    · exact hne runId handle' hget'

/-- An entry is taken out, its task to be aborted. -/
theorem Registered.takeOut {s : State} (h : Registered s) {run : String}
    {entry : RunLogTailHandle} (hget : s.runs[run]? = some entry) :
    Registered { s with runs := s.runs.erase run, aborting := entry.task :: s.aborting } := by
  have hbefore : ∀ (runId : String) handle, (s.runs.erase run)[runId]? = some handle →
      run ≠ runId ∧ s.runs[runId]? = some handle := by
    intro runId handle hget'
    rw [Std.ExtTreeMap.getElem?_erase] at hget'
    split at hget'
    · exact nomatch hget'
    · next hne => exact ⟨fun heq => hne (by simpa using heq), hget'⟩
  obtain ⟨running, htask⟩ := h.owns run entry hget
  refine ⟨?_, ?_, ?_⟩
  · intro runId handle hget'
    exact h.positive runId handle (hbefore runId handle hget').2
  · intro runId handle hget'
    exact h.owns runId handle (hbefore runId handle hget').2
  · intro id hmem
    rcases List.mem_cons.mp hmem with rfl | hmem
    · refine ⟨(List.getElem?_eq_some_iff.mp htask).1, fun runId handle hget' heq => ?_⟩
      obtain ⟨hne, hget'⟩ := hbefore runId handle hget'
      obtain ⟨running', htask'⟩ := h.owns runId handle hget'
      -- a task is of one run only
      rw [heq, htask] at htask'
      cases htask'
      exact hne rfl
    · obtain ⟨hlt, hne⟩ := h.detached id hmem
      exact ⟨hlt, fun runId handle hget' => hne runId handle (hbefore runId handle hget').2⟩

theorem Registered.retain {s : State} (h : Registered s) (run : String) :
    Registered (retainRunLogTail s run) := by
  rw [retainRunLogTail]
  split
  · next handle hget => exact h.recount hget (Nat.succ_pos _)
  · exact h.spawn run

theorem Registered.release {s : State} (h : Registered s) (run : String) :
    Registered (releaseRunLogTail s run) := by
  rw [releaseRunLogTail]
  split
  · exact h
  · next entry hget =>
      split
      · next hmore => exact h.recount hget (by omega)
      · exact h.takeOut hget

theorem Registered.stopTask {s : State} (h : Registered s) (id : Nat) :
    Registered (stopTask s id) := by
  refine ⟨h.positive, ?_, ?_⟩
  · intro runId handle hget
    obtain ⟨running, htask⟩ := h.owns runId handle hget
    show ∃ running, (s.tasks.modify id _)[handle.task]? = some (TailTask.mk runId running)
    by_cases heq : id = handle.task
    · subst heq
      exact ⟨false, by rw [List.getElem?_modify_eq, htask]; rfl⟩
    · exact ⟨running, by rw [List.getElem?_modify_ne _ _ heq, htask]⟩
  · intro id' hmem
    obtain ⟨hlt, hne⟩ := h.detached id' hmem
    refine ⟨?_, hne⟩
    show id' < (s.tasks.modify id _).length
    rw [List.length_modify]
    exact hlt

-- ── every step ────────────────────────────────────────────────────────────────

/-- What every run keeps. -/
structure Inv (s : State) : Prop where
  counts : ∀ runId, count s runId = live s runId
  registered : Registered s

theorem inv_fresh : Inv fresh where
  counts := fun runId => by rw [count_none (by simp [fresh])]; rfl
  registered := by
    refine ⟨?_, ?_, ?_⟩ <;> simp [fresh]

/-- A subscription goes on: its call does to the count what its stages say. -/
theorem Inv.advance {s : State} (h : Inv s) {call : State → String → State}
    (hregistered : ∀ run, Registered (call s run)) (i : Nat) {before after : Stage}
    (hcount : ∀ run runId, (isLive runId ⟨run, before⟩ = true → 0 < count s runId) →
      count (call s run) runId
      = count s runId - (if isLive runId ⟨run, before⟩ then 1 else 0)
        + if isLive runId ⟨run, after⟩ then 1 else 0) :
    Inv (advance s i before after call) := by
  rw [DevstackTailSubscriptions.advance]
  split
  · next sub hget =>
      split
      · next hstage =>
          refine ⟨fun runId => ?_, (hregistered sub.runId).of_same rfl rfl (fun _ hmem => hmem)⟩
          obtain ⟨run, stage⟩ := sub
          cases hstage
          show count (call s run) runId
            = (s.subscriptions.set i ⟨run, after⟩).countP (isLive runId)
          have hpos : isLive runId ⟨run, stage⟩ = true → 0 < count s runId := by
            intro hlive
            rw [h.counts runId]
            exact List.countP_pos_iff.mpr ⟨_, List.mem_of_getElem? hget, hlive⟩
          rw [hcount run runId hpos, h.counts runId]
          exact (live_set hget after runId).symm
      · exact h
  · exact h

theorem inv_step (s : State) (a : Action) (h : Inv s) : Inv (step s a) := by
  cases a with
  | subscribe runId =>
      refine ⟨fun run => ?_, h.registered.of_same rfl rfl (fun _ hmem => hmem)⟩
      show count s run = (s.subscriptions ++ [Subscription.mk runId .waiting]).countP (isLive run)
      rw [List.countP_append, h.counts run]
      simp [live, isLive]
  | retain i =>
      refine h.advance h.registered.retain i (fun run runId _ => ?_)
      rw [count_retain]
      simp [isLive]
  | drop i =>
      show Inv (advance s i .retained .dropped (fun s _ => s))
      refine h.advance (fun _ => h.registered) i (fun run runId hpos => ?_)
      by_cases heq : run = runId
      · simp only [isLive, heq] at hpos ⊢
        exact (Nat.sub_add_cancel (hpos (by simp))).symm
      · simp [isLive, heq]
  | release i =>
      refine h.advance h.registered.release i (fun run runId _ => ?_)
      rw [count_release]
      simp [isLive]
  | abort id =>
      show Inv (if id ∈ s.aborting then _ else s)
      split
      · exact ⟨h.counts, (h.registered.stopTask id).of_same rfl rfl
          (fun _ hmem => List.mem_of_mem_erase hmem)⟩
      · exact h
  | taskEnds id => exact ⟨h.counts, h.registered.stopTask id⟩

-- ── who is tailed ─────────────────────────────────────────────────────────────

/-- The registered tasks run. -/
def Alive (s : State) : Prop :=
  ∀ (runId : String) handle, s.runs[runId]? = some handle →
    s.tasks[handle.task]? = some ⟨runId, true⟩

theorem alive_fresh : Alive fresh := by
  intro runId handle hget
  simp [fresh] at hget

theorem tailKept_iff {s : State} (h : Inv s) : TailKept s ↔ Alive s := by
  constructor
  · intro hkept runId handle hget
    have hpos : 0 < count s runId := count_some hget ▸ h.registered.positive runId handle hget
    obtain ⟨handle', hget', htask⟩ := (hkept runId).2 hpos
    rw [hget] at hget'
    cases hget'
    exact htask
  · intro halive runId
    refine ⟨h.counts runId, fun hpos => ?_⟩
    rcases hget : s.runs[runId]? with _ | handle
    · rw [count_none hget] at hpos
      exact absurd hpos (Nat.lt_irrefl 0)
    · exact ⟨handle, hget, halive runId handle hget⟩

theorem alive_of_same {s s' : State} (hruns : s'.runs = s.runs) (htasks : s'.tasks = s.tasks)
    (h : Alive s) : Alive s' := by
  intro runId handle hget
  rw [hruns] at hget
  rw [htasks]
  exact h runId handle hget

theorem alive_recount {s : State} (h : Alive s) {run : String} {handle : RunLogTailHandle}
    (hget : s.runs[run]? = some handle) (n : Nat) :
    Alive { s with runs := s.runs.insert run { handle with subscribers := n } } := by
  intro runId handle' hget'
  rw [Std.ExtTreeMap.getElem?_insert] at hget'
  split at hget'
  · next heq =>
      cases hget'
      obtain rfl : run = runId := by simpa using heq
      exact h run handle hget
  · exact h runId handle' hget'

theorem alive_retain {s : State} (h : Alive s) (run : String) : Alive (retainRunLogTail s run) := by
  rw [retainRunLogTail]
  split
  · next handle hget => exact alive_recount h hget _
  · intro runId handle' hget'
    rw [Std.ExtTreeMap.getElem?_insert] at hget'
    split at hget'
    · next heq =>
        cases hget'
        obtain rfl : run = runId := by simpa using heq
        exact List.getElem?_concat_length
    · have htask := h runId handle' hget'
      exact (List.getElem?_append_left (List.getElem?_eq_some_iff.mp htask).1).trans htask

theorem alive_release {s : State} (h : Alive s) (run : String) :
    Alive (releaseRunLogTail s run) := by
  rw [releaseRunLogTail]
  split
  · exact h
  · next entry hget =>
      split
      · exact alive_recount h hget _
      · intro runId handle hget'
        rw [Std.ExtTreeMap.getElem?_erase] at hget'
        split at hget'
        · exact nomatch hget'
        · exact h runId handle hget'

theorem alive_advance {s : State} (h : Alive s) {call : State → String → State}
    (hcall : ∀ run, Alive (call s run)) (i : Nat) (before after : Stage) :
    Alive (advance s i before after call) := by
  rw [advance]
  split
  · next sub _ =>
      split
      · exact alive_of_same rfl rfl (hcall sub.runId)
      · exact h
  · exact h

/-- A task that stops takes nobody's logs away exactly if no entry has it. -/
theorem alive_stopTask {s : State} (h : Alive s) (id : Nat) :
    Alive (stopTask s id)
      ↔ ∀ (runId : String) handle, s.runs[runId]? = some handle → handle.task ≠ id := by
  constructor
  · rintro hafter runId handle hget rfl
    have htask : (s.tasks.modify handle.task _)[handle.task]? = some (TailTask.mk runId true) :=
      hafter runId handle hget
    rw [List.getElem?_modify_eq, h runId handle hget] at htask
    simp at htask
  · intro hother runId handle hget
    show (s.tasks.modify id _)[handle.task]? = some (TailTask.mk runId true)
    rw [List.getElem?_modify_ne _ _ (Ne.symm (hother runId handle hget))]
    exact h runId handle hget

theorem alive_step {s : State} (hinv : Inv s) (h : Alive s) (a : Action) :
    Alive (step s a) ↔ Undisturbed s a := by
  cases a with
  | subscribe runId => exact iff_of_true (alive_of_same rfl rfl h) trivial
  | retain i => exact iff_of_true (alive_advance h (alive_retain h) i _ _) trivial
  | drop i =>
      refine iff_of_true ?_ trivial
      show Alive (advance s i .retained .dropped (fun s _ => s))
      exact alive_advance h (fun _ => h) i _ _
  | release i => exact iff_of_true (alive_advance h (alive_release h) i _ _) trivial
  | abort id =>
      refine iff_of_true ?_ trivial
      show Alive (if id ∈ s.aborting then _ else s)
      split
      · next hmem =>
          have hstopped := (alive_stopTask h id).mpr (hinv.registered.detached id hmem).2
          exact alive_of_same rfl rfl hstopped
      · exact h
  | taskEnds id => exact alive_stopTask h id

-- ── the claim ─────────────────────────────────────────────────────────────────

/-- The counts are right in every run, whatever ends by itself. -/
theorem counts_reached (as : List Action) (runId : String) :
    count (run step fresh as) runId = live (run step fresh as) runId :=
  (run_invariant step inv_step as fresh inv_fresh).counts runId

/-- **THE TASK IS KEPT EXACTLY WHILE NO REGISTERED TASK ENDS BY ITSELF**: after every
    step of a run the counts are those of the live subscriptions and every run that
    has some is tailed, if and only if no step of the run is the end of a task that is
    registered at that moment. -/
theorem tailKept_along_iff (as : List Action) :
    Along step (fun s a => TailKept (step s a)) fresh as ↔ Along step Undisturbed fresh as := by
  have hiff : ∀ s a, Inv s ∧ Alive s → (TailKept (step s a) ↔ Undisturbed s a) := by
    rintro s a ⟨hinv, halive⟩
    rw [tailKept_iff (inv_step s a hinv)]
    exact alive_step hinv halive a
  have hstep : ∀ s a, Inv s ∧ Alive s → TailKept (step s a) →
      Inv (step s a) ∧ Alive (step s a) := by
    rintro s a ⟨hinv, -⟩ hkept
    have hinv' := inv_step s a hinv
    exact ⟨hinv', (tailKept_iff hinv').mp hkept⟩
  exact along_congr step hiff hstep as fresh ⟨inv_fresh, alive_fresh⟩

/-- A watcher fails, the subscriber stays, and a second one attaches to the ended
    task. -/
theorem ended_task_kept :
    ¬ TailKept (run step fresh
      [.subscribe "run", .retain 0, .taskEnds 0, .subscribe "run", .retain 1]) := by
  intro hkept
  obtain ⟨-, htailed⟩ := hkept "run"
  simp [step, advance, fresh, retainRunLogTail, stopTask, count, Tailed] at htailed

end DevstackTailSubscriptions
