import Devstack.Lib.Conveyor
import Devstack.LiveTail

/-! # Event stream — from `emit_event` to what a dashboard shows and refetches

    `events` of `src/daemon/handlers/events.rs` with `should_deliver` of `src/api.rs`,
    and `useEventStream` of `devstack-dash/src/lib/use-event-stream.ts`.  The daemon
    sends every event into one broadcast channel of 1024 places; each connection has a
    task that receives from it, drops what its filter does not let through and sends
    the rest into a channel of 32 places, which the response is read from.  A dashboard
    holds one connection at a time, and its `EventSource` connects again when it breaks.

    Any number of dashboards and the daemon take their steps in any order.

    * `logs_in_order`: in every state a dashboard shows events of its run, in the order
      in which they were sent and each once at most, over any number of connections;
    * `logs_complete`: on a connection that did not lag it shows the last 5000 of all that
      were sent since the connection began, less what is still on its way;
    * `changes_refetched`: once nothing is on its way, every query that an event was
      about has been invalidated after the event, also by an event that came while the
      connection was broken.

    The payload is JSON on its way; what is parsed is what was written. -/

namespace DevstackEventStream

open DevstackModel DevstackMachine DevstackConveyor DevstackLiveTail
open DevstackLogLine (LineTools)

variable (tools : LineTools)

-- ── daemon ────────────────────────────────────────────────────────────────────

/-- `DaemonEvent`, with the fields that are read on the way to the screen. -/
inductive DaemonEvent where
  | run (runId : String)
  | service (runId : String)
  | task (runId : Option String)
  | global
  | log (event : DaemonLogEvent tools)

/-- An event with its place among all events sent. -/
abbrev Posted := DaemonEvent tools × Nat

/-- The task of `events` and its `stream_tx`; `sending` is the event whose `send` waits.
    `wire` is what the response has taken out of the channel.

    The last three say what has happened: where the task subscribed, whether `recv` has
    returned `Lagged`, and what the dashboard has handled. -/
structure EventTask where
  runFilter : Option String
  next : Nat
  sending : Option (Posted tools)
  channel : List (Posted tools)
  wire : List (Posted tools)
  start : Nat
  lagged : Bool
  handled : List (Posted tools)

variable {tools}

def shouldDeliver (runId : Option String) : DaemonEvent tools → Bool
  | .log event => runId == some event.runId
  | .task eventRun =>
      match runId with
      | some filter => eventRun == some filter
      | none => true
  | _ => true

/-- `tokio::sync::broadcast::channel(1024)` of `run_daemon`. -/
def busCapacity : Nat := 1024

/-- `tokio::sync::mpsc::channel(32)`. -/
def streamCapacity : Nat := 32

/-- `event_tx.subscribe()` and what is spawned: the events sent from now on.  An event
    that is sent while nobody is subscribed is dropped, and nobody can tell. -/
def EventTask.subscribe (sent : List (DaemonEvent tools)) (runFilter : Option String) :
    EventTask tools :=
  ⟨runFilter, sent.length, none, [], [], sent.length, false, []⟩

/-- A turn of the loop.  A receiver that is more than the capacity behind is told that it
    lagged and goes on with the oldest event that is left. -/
def EventTask.receive (sent : List (DaemonEvent tools)) (task : EventTask tools) :
    EventTask tools :=
  if task.sending.isSome then task
  else if busCapacity < sent.length - task.next then
    { task with next := sent.length - busCapacity, lagged := true }
  else
    match sent.zipIdx[task.next]? with
    | none => task
    | some posted =>
        if shouldDeliver task.runFilter posted.1 then
          { task with next := task.next + 1, sending := some posted }
        else { task with next := task.next + 1 }

/-- `stream_tx.send` finds a place. -/
def EventTask.push (task : EventTask tools) : EventTask tools :=
  match task.sending with
  | none => task
  | some posted =>
      if task.channel.length < streamCapacity then
        { task with sending := none, channel := task.channel ++ [posted] }
      else task

/-- The response takes the next event out of the channel. -/
def EventTask.flush (task : EventTask tools) : EventTask tools :=
  match task.channel with
  | [] => task
  | posted :: channel => { task with channel := channel, wire := task.wire ++ [posted] }

-- ── dashboard ─────────────────────────────────────────────────────────────────

abbrev QueryKey := List String

namespace queryKeys

def runs : QueryKey := ["runs"]
def runStatus (runId : String) : QueryKey := ["runs", runId, "status"]
def runTasks (runId : String) : QueryKey := ["runs", runId, "tasks"]
def globals : QueryKey := ["globals"]

end queryKeys

variable (tools) in
/-- The `EventSource`: connecting, or with a connection that `open` has been fired for or
    not, or given up. -/
inductive Source where
  | connecting
  | streaming (opened : Bool) (task : EventTask tools)
  | closed

variable (tools) in
/-- The state of `useEventStream`.  A key in `invalidated` has the number of the events that
    had been sent when it was invalidated.

    `since` is where the first connection began that opened for this `activeRunId`. -/
structure EventStream where
  activeRunId : Option String
  connected : Bool
  logs : List (DaemonLogEvent tools)
  hasOpened : Bool
  shouldRefreshOnOpen : Bool
  invalidated : List (QueryKey × Nat)
  source : Source tools
  since : Option Nat

/-- `MAX_LOGS`. -/
def maxLogs : Nat := 5000

def appendLogEntries (entries : List (DaemonLogEvent tools)) (next : DaemonLogEvent tools) :
    List (DaemonLogEvent tools) :=
  if entries.length < maxLogs then entries ++ [next]
  else entries.drop (entries.length - maxLogs + 1) ++ [next]

/-- `params.set('run_id', activeRunId)`; an empty id is no parameter. -/
def runIdParam (activeRunId : Option String) : Option String :=
  activeRunId.filter (fun runId => runId ≠ "")

/-- The keys that `handleRun`, `handleService`, `handleTask` and `handleGlobal` invalidate. -/
def invalidates : DaemonEvent tools → List QueryKey
  | .run runId => [queryKeys.runs, queryKeys.runStatus runId]
  | .service runId => [queryKeys.runStatus runId]
  | .task none => []
  | .task (some runId) => if runId = "" then [] else [["runs", runId]]
  | .global => [queryKeys.globals]
  | .log _ => []

namespace EventStream

/-- The effect runs for the first time. -/
def mount (activeRunId : Option String) : EventStream tools :=
  ⟨activeRunId, false, [], false, false, [], .connecting, none⟩

/-- `activeRunId` changes: the cleanup of the effect, and the effect again. -/
def select (h : EventStream tools) (activeRunId : Option String) : EventStream tools :=
  { mount activeRunId with invalidated := h.invalidated }

def invalidateQueries (h : EventStream tools) (now : Nat) (keys : List QueryKey) :
    EventStream tools :=
  { h with invalidated := h.invalidated ++ keys.map (fun key => (key, now)) }

/-- `clearLogs(); invalidateQueries(); shouldRefreshOnOpen = false`. -/
def refresh (h : EventStream tools) (now : Nat) : EventStream tools :=
  { h.invalidateQueries now [[]] with logs := [], shouldRefreshOnOpen := false }

def handleOpen (h : EventStream tools) (now : Nat) : EventStream tools :=
  { (if h.shouldRefreshOnOpen then h.refresh now else h) with connected := true, hasOpened := true }

def handleError (h : EventStream tools) : EventStream tools :=
  { h with
    connected := false
    shouldRefreshOnOpen := h.hasOpened || h.shouldRefreshOnOpen }

def handleLog (h : EventStream tools) (event : DaemonLogEvent tools) : EventStream tools :=
  if some event.runId ≠ h.activeRunId then h
  else { h with logs := appendLogEntries h.logs event }

/-- The listeners of the five events. -/
def handleEvent (h : EventStream tools) (now : Nat) (event : DaemonEvent tools) :
    EventStream tools :=
  match event with
  | .log event => h.handleLog event
  | event => h.invalidateQueries now (invalidates event)

/-- `events`: a run that is not there is a 404, and the `EventSource` does not try again. -/
def connect (h : EventStream tools) (sent : List (DaemonEvent tools)) (runs : List String) :
    EventStream tools :=
  match runIdParam h.activeRunId with
  | none => { h with source := .streaming false (.subscribe sent none) }
  | some runId =>
      if runId ∈ runs then { h with source := .streaming false (.subscribe sent (some runId)) }
      else { h.handleError with source := .closed }

/-- A step of the task or the response. -/
def onTask (h : EventStream tools) (f : EventTask tools → EventTask tools) : EventStream tools :=
  match h.source with
  | .streaming opened task => { h with source := .streaming opened (f task) }
  | _ => h

def opened (h : EventStream tools) (sent : List (DaemonEvent tools)) : EventStream tools :=
  match h.source with
  | .streaming false task =>
      { h.handleOpen sent.length with
        source := .streaming true task
        since := if h.hasOpened then h.since else some task.start }
  | _ => h

/-- The browser fires messages after `open` only. -/
def message (h : EventStream tools) (sent : List (DaemonEvent tools)) : EventStream tools :=
  match h.source with
  | .streaming true task =>
      match task.wire with
      | [] => h
      | posted :: wire =>
          { h.handleEvent sent.length posted.1 with
            source := .streaming true
              { task with wire := wire, handled := task.handled ++ [posted] } }
  | _ => h

def breaks (h : EventStream tools) : EventStream tools :=
  match h.source with
  | .closed => h
  | _ => { h.handleError with source := .connecting }

end EventStream

-- ── system ────────────────────────────────────────────────────────────────────

variable (tools) in
/-- The events sent so far, the runs of the `RunStore`, the dashboards. -/
structure State where
  sent : List (DaemonEvent tools)
  runs : List String
  dashboards : List (EventStream tools)

/-- What happens around one dashboard: its request reaches `events`, the task and the
    response go on, the browser fires `open` or the next message, the connection breaks,
    another run is selected. -/
inductive Move where
  | connect
  | receive
  | push
  | flush
  | opened
  | message
  | breaks
  | select (activeRunId : Option String)

variable (tools) in
inductive Action where
  | emit (event : DaemonEvent tools)
  | setRuns (runs : List String)
  | mount (activeRunId : Option String)
  | at (i : Nat) (move : Move)

def Move.apply (sent : List (DaemonEvent tools)) (runs : List String) (h : EventStream tools) :
    Move → EventStream tools
  | .connect =>
      match h.source with
      | .connecting => h.connect sent runs
      | _ => h
  | .receive => h.onTask (EventTask.receive sent)
  | .push => h.onTask EventTask.push
  | .flush => h.onTask EventTask.flush
  | .opened => h.opened sent
  | .message => h.message sent
  | .breaks => h.breaks
  | .select activeRunId => h.select activeRunId

def step (s : State tools) : Action tools → State tools
  | .emit event => { s with sent := s.sent ++ [event] }
  | .setRuns runs => { s with runs := runs }
  | .mount activeRunId => { s with dashboards := s.dashboards ++ [.mount activeRunId] }
  | .at i move =>
      { s with dashboards := s.dashboards.modify i (fun h => move.apply s.sent s.runs h) }

def init : State tools := ⟨[], [], []⟩

-- ── what a dashboard is about ─────────────────────────────────────────────────

/-- The log events of a run, in the order in which they were sent. -/
def logsOf (runId : Option String) (events : List (DaemonEvent tools)) :
    List (DaemonLogEvent tools) :=
  events.filterMap (fun event =>
    match event with
    | .log event => if some event.runId = runId then some event else none
    | _ => none)

/-- The queries whose answer an event is about. -/
def concerns : DaemonEvent tools → List QueryKey
  | .run runId => [queryKeys.runs, queryKeys.runStatus runId]
  | .service runId => [queryKeys.runStatus runId]
  | .task runId => (runId.filter (fun runId => runId ≠ "")).toList.map queryKeys.runTasks
  | .global => [queryKeys.globals]
  | .log _ => []

/-- Every query the event was about has been invalidated after it; `invalidateQueries`
    takes all queries whose keys begin with the given one. -/
def Refetched (h : EventStream tools) (posted : Posted tools) : Prop :=
  ∀ query ∈ concerns posted.1, ∃ key now, (key, now) ∈ h.invalidated ∧ posted.2 < now ∧
    key <+: query

namespace EventTask

/-- Sent, let through by the filter and not received yet. -/
def due (task : EventTask tools) (sent : List (DaemonEvent tools)) (place : Nat) :
    List (Posted tools) :=
  (sent.zipIdx.drop place).filter (fun posted => shouldDeliver task.runFilter posted.1)

/-- What is on its way to the dashboard, the oldest first. -/
def onTheWay (task : EventTask tools) (sent : List (DaemonEvent tools)) : List (Posted tools) :=
  task.wire ++ (task.channel ++ (task.sending.toList ++ task.due sent task.next))

end EventTask

/-- The way of the events of a connection. -/
def line : Conveyor (List (DaemonEvent tools) × EventTask tools) (Posted tools) where
  given p := p.2.due p.1 p.2.start
  content p := p.2.handled ++ p.2.onTheWay p.1

-- ── a connection ──────────────────────────────────────────────────────────────

/-- The task is within what was sent; what it has taken on is in order, and complete if
    it did not lag. -/
structure Sound (sent : List (DaemonEvent tools)) (task : EventTask tools) : Prop where
  start_le : task.start ≤ task.next
  next_le : task.next ≤ sent.length
  order : (line.content (sent, task)).Sublist (line.given (sent, task))
  complete : task.lagged = false → line.content (sent, task) = line.given (sent, task)

/-- A turn of the task or of the response. -/
structure Turn (sent : List (DaemonEvent tools)) (task task' : EventTask tools) : Prop where
  runFilter : task'.runFilter = task.runFilter
  start : task'.start = task.start
  handled : task'.handled = task.handled
  sound : Sound sent task → Sound sent task'

theorem Turn.refl (sent : List (DaemonEvent tools)) (task : EventTask tools) :
    Turn sent task task :=
  ⟨rfl, rfl, rfl, id⟩

theorem Sound.of_exact {sent sent' : List (DaemonEvent tools)} {task task' : EventTask tools}
    (hs : Sound sent task) (hx : line.Exact (sent, task) (sent', task'))
    (hlagged : task'.lagged = task.lagged) (hstart : task'.start ≤ task'.next)
    (hnext : task'.next ≤ sent'.length) : Sound sent' task' where
  start_le := hstart
  next_le := hnext
  order := hx.lossy.keeps hs.order
  complete := by
    intro h
    rw [hlagged] at h
    exact hx.keeps (hs.complete h)

theorem sound_subscribe (sent : List (DaemonEvent tools)) (runFilter : Option String) :
    Sound sent (EventTask.subscribe sent runFilter) where
  start_le := Nat.le_refl _
  next_le := Nat.le_refl _
  order := List.Sublist.refl _
  complete := fun _ => rfl

section Sending

variable {sent : List (DaemonEvent tools)} {task : EventTask tools}

theorem due_append (event : DaemonEvent tools) {place : Nat} (h : place ≤ sent.length) :
    task.due (sent ++ [event]) place
      = task.due sent place
        ++ [(event, sent.length)].filter (fun posted => shouldDeliver task.runFilter posted.1) := by
  have hle : place ≤ sent.zipIdx.length := by rw [List.length_zipIdx]; exact h
  rw [EventTask.due, List.zipIdx_append, List.drop_append_of_le_length hle, List.filter_append,
    Nat.zero_add]
  rfl

/-- The next event of `place` is let through or not. -/
theorem due_eq_cons (task : EventTask tools) {place : Nat} {posted : Posted tools}
    (h : sent.zipIdx[place]? = some posted) :
    task.due sent place
      = (if shouldDeliver task.runFilter posted.1 then [posted] else [])
        ++ task.due sent (place + 1) := by
  obtain ⟨hlt, heq⟩ := List.getElem?_eq_some_iff.mp h
  rw [EventTask.due, List.drop_eq_getElem_cons hlt, heq, List.filter_cons]
  split <;> rfl

theorem due_sublist {place place' : Nat} (h : place ≤ place') :
    (task.due sent place').Sublist (task.due sent place) :=
  (List.drop_sublist_drop_left _ h).filter _

/-- Another event is sent. -/
theorem Sound.emit (hs : Sound sent task) (event : DaemonEvent tools) :
    Sound (sent ++ [event]) task := by
  have hnext := hs.next_le
  refine hs.of_exact ?_ rfl hs.start_le (by rw [List.length_append]; omega)
  refine ⟨[(event, sent.length)].filter (fun posted => shouldDeliver task.runFilter posted.1),
    due_append event (hs.start_le.trans hnext), ?_⟩
  show task.handled ++ (task.wire ++ (task.channel ++ (task.sending.toList ++ _))) = _
  rw [due_append event hnext]
  simp only [line, EventTask.onTheWay, List.append_assoc]

/-- The receiver skips to `place`. -/
theorem turn_lagged {place : Nat} (hle : task.next ≤ place) (hplace : place ≤ sent.length) :
    Turn sent task { task with next := place, lagged := true } := by
  refine ⟨rfl, rfl, rfl, fun hs => ?_⟩
  have hlossy : line.Lossy (sent, task) (sent, { task with next := place, lagged := true }) := by
    refine Conveyor.Lossy.of_sublist rfl ?_
    exact ((((due_sublist hle).append_left _).append_left _).append_left _).append_left _
  exact ⟨hs.start_le.trans hle, hplace, hlossy.keeps hs.order, fun h => by cases h⟩

/-- The task receives: nothing is lost unless it lagged. -/
theorem turn_receive (sent : List (DaemonEvent tools)) (task : EventTask tools) :
    Turn sent task (task.receive sent) := by
  rw [EventTask.receive]
  by_cases hsending : task.sending.isSome
  · rw [if_pos hsending]; exact Turn.refl sent task
  have hnone : task.sending = none := by
    cases h : task.sending with
    | none => rfl
    | some posted => rw [h] at hsending; exact absurd rfl hsending
  rw [if_neg hsending]
  by_cases hlag : busCapacity < sent.length - task.next
  · rw [if_pos hlag]
    exact turn_lagged (by omega) (Nat.sub_le _ _)
  rw [if_neg hlag]
  cases hat : sent.zipIdx[task.next]? with
  | none => exact Turn.refl sent task
  | some posted =>
      have hlt : task.next < sent.length := by
        have h := (List.getElem?_eq_some_iff.mp hat).1
        rwa [List.length_zipIdx] at h
      have hdue := due_eq_cons task hat
      by_cases hdeliver : shouldDeliver task.runFilter posted.1
      · rw [if_pos hdeliver] at hdue
        simp only [hdeliver, if_true]
        refine ⟨rfl, rfl, rfl, fun hs => ?_⟩
        refine hs.of_exact (Conveyor.Exact.of_eq rfl ?_) rfl (Nat.le_succ_of_le hs.start_le) hlt
        simp only [line, EventTask.onTheWay, hnone, hdue, Option.toList_none, Option.toList_some,
          List.nil_append]
        rfl
      · rw [if_neg hdeliver, List.nil_append] at hdue
        simp only [hdeliver]
        refine ⟨rfl, rfl, rfl, fun hs => ?_⟩
        refine hs.of_exact (Conveyor.Exact.of_eq rfl ?_) rfl (Nat.le_succ_of_le hs.start_le) hlt
        simp only [line, EventTask.onTheWay, hdue]
        rfl

theorem turn_push (sent : List (DaemonEvent tools)) (task : EventTask tools) :
    Turn sent task task.push := by
  rw [EventTask.push]
  cases hsending : task.sending with
  | none => exact Turn.refl sent task
  | some posted =>
      by_cases hroom : task.channel.length < streamCapacity
      · simp only [hroom, if_true]
        refine ⟨rfl, rfl, rfl, fun hs => ?_⟩
        refine hs.of_exact (Conveyor.Exact.of_eq rfl ?_) rfl hs.start_le hs.next_le
        simp only [line, EventTask.onTheWay, hsending, Option.toList_none, Option.toList_some,
          List.append_assoc, List.nil_append]
        rfl
      · simp only [hroom, if_false]
        exact Turn.refl sent task

theorem turn_flush (sent : List (DaemonEvent tools)) (task : EventTask tools) :
    Turn sent task task.flush := by
  rw [EventTask.flush]
  cases hchannel : task.channel with
  | nil => exact Turn.refl sent task
  | cons posted channel =>
      refine ⟨rfl, rfl, rfl, fun hs => ?_⟩
      refine hs.of_exact (Conveyor.Exact.of_eq rfl ?_) rfl hs.start_le hs.next_le
      simp only [line, EventTask.onTheWay, hchannel, List.append_assoc, List.cons_append,
        List.nil_append]
      rfl

end Sending

-- ── a dashboard ───────────────────────────────────────────────────────────────

/-- What holds while a connection is open: what is shown and what was invalidated comes
    from what was handled on it. -/
structure Opened (h : EventStream tools) (task : EventTask tools) : Prop where
  logs : h.logs = (logsOf h.activeRunId (task.handled.map Prod.fst)).rtake maxLogs
  refetched : ∀ posted ∈ task.handled, Refetched h posted
  /-- It is the first, or everything was invalidated after it began. -/
  begun : h.since = some task.start ∨ ∃ now, ([], now) ∈ h.invalidated ∧ task.start ≤ now

/-- What holds while no connection is open: the next `open` refreshes, or there is nothing
    to refresh. -/
structure Waiting (h : EventStream tools) : Prop where
  refresh : h.hasOpened = true → h.shouldRefreshOnOpen = true
  empty : h.hasOpened = false → h.logs = []

/-- The part of the invariant that depends on the connection. -/
def Attached (sent : List (DaemonEvent tools)) (h : EventStream tools) : Source tools → Prop
  | .streaming opened task =>
      Sound sent task ∧ task.runFilter = runIdParam h.activeRunId ∧
        if opened then h.hasOpened = true ∧ Opened h task else Waiting h ∧ task.handled = []
  | _ => Waiting h

structure Follows (sent : List (DaemonEvent tools)) (h : EventStream tools) : Prop where
  shown : h.logs.Sublist (logsOf h.activeRunId sent)
  few : h.logs.length ≤ maxLogs
  since : h.hasOpened = true → h.since.isSome
  attached : Attached sent h h.source

section Dashboard

variable {sent : List (DaemonEvent tools)} {h : EventStream tools}

theorem logsOf_append (runId : Option String) (events more : List (DaemonEvent tools)) :
    logsOf runId (events ++ more) = logsOf runId events ++ logsOf runId more :=
  List.filterMap_append

/-- Appending to the last `n + 1` entries and dropping the oldest. -/
theorem window_append {α : Type} (all : List α) (next : α) (n : Nat) :
    (if (all.rtake (n + 1)).length < n + 1 then all.rtake (n + 1) ++ [next]
      else (all.rtake (n + 1)).drop ((all.rtake (n + 1)).length - (n + 1) + 1) ++ [next])
      = (all ++ [next]).rtake (n + 1) := by
  have hlength : (all.rtake (n + 1)).length = min (n + 1) all.length := by
    rw [List.rtake, List.length_drop]; omega
  rw [List.rtake_concat_succ, hlength]
  by_cases h : all.length < n + 1
  · rw [if_pos (by omega), List.rtake, List.rtake, show all.length - (n + 1) = 0 by omega,
      show all.length - n = 0 by omega]
  · rw [if_neg (by omega), List.rtake, List.rtake, List.drop_drop,
      show all.length - (n + 1) + (min (n + 1) all.length - (n + 1) + 1) = all.length - n by omega]

theorem appendLogEntries_rtake (all : List (DaemonLogEvent tools)) (next : DaemonLogEvent tools) :
    appendLogEntries (all.rtake maxLogs) next = (all ++ [next]).rtake maxLogs :=
  window_append all next 4999

theorem length_rtake_le (all : List (DaemonLogEvent tools)) :
    (all.rtake maxLogs).length ≤ maxLogs := by
  rw [List.rtake, List.length_drop]; omega

theorem invalidates_concerns {event : DaemonEvent tools} {query : QueryKey}
    (hq : query ∈ concerns event) : ∃ key ∈ invalidates event, key <+: query := by
  cases event with
  | task runId =>
      cases runId with
      | none => cases hq
      | some runId =>
          by_cases hempty : runId = ""
          · simp [concerns, hempty] at hq
          · have heq : queryKeys.runTasks runId = query := by simpa [concerns, hempty] using hq
            exact ⟨["runs", runId], by simp [invalidates, hempty], ⟨["tasks"], heq⟩⟩
  | log event => cases hq
  | run runId => exact ⟨query, hq, List.prefix_refl query⟩
  | service runId => exact ⟨query, hq, List.prefix_refl query⟩
  | global => exact ⟨query, hq, List.prefix_refl query⟩

theorem Refetched.mono {h' : EventStream tools} {posted : Posted tools} (hr : Refetched h posted)
    (hsub : h.invalidated ⊆ h'.invalidated) : Refetched h' posted := by
  intro query hq
  obtain ⟨key, now, hmem, hlt, hprefix⟩ := hr query hq
  exact ⟨key, now, hsub hmem, hlt, hprefix⟩

/-- What is handled on a connection is part of what was sent. -/
theorem Sound.handled_sublist {task : EventTask tools} (hs : Sound sent task) :
    task.handled.Sublist sent.zipIdx :=
  (List.sublist_append_left _ _).trans
    (hs.order.trans (List.filter_sublist.trans (List.drop_sublist _ _)))

theorem logsOf_handled_sublist {task : EventTask tools} (hs : Sound sent task)
    (runId : Option String) :
    (logsOf runId (task.handled.map Prod.fst)).Sublist (logsOf runId sent) := by
  have h := (hs.handled_sublist.map Prod.fst).filterMap (fun event =>
    match event with
    | .log event => if some event.runId = runId then some event else none
    | _ => none)
  rwa [List.zipIdx_map_fst] at h

theorem follows_mount (sent : List (DaemonEvent tools)) (activeRunId : Option String) :
    Follows sent (EventStream.mount activeRunId) where
  shown := List.nil_sublist _
  few := Nat.zero_le _
  since := fun h => absurd h Bool.false_ne_true
  attached := ⟨fun h => absurd h Bool.false_ne_true, fun _ => rfl⟩

theorem Follows.emit (hf : Follows sent h) (event : DaemonEvent tools) :
    Follows (sent ++ [event]) h where
  shown := hf.shown.trans (logsOf_append h.activeRunId sent [event] ▸ List.sublist_append_left _ _)
  few := hf.few
  since := hf.since
  attached := by
    have ha := hf.attached
    cases hsource : h.source with
    | streaming opened task =>
        rw [hsource] at ha
        exact ⟨ha.1.emit event, ha.2⟩
    | connecting => rw [hsource] at ha; exact ha
    | closed => rw [hsource] at ha; exact ha

/-- After `handleError` the next `open` refreshes. -/
theorem waiting_handleError (hempty : h.hasOpened = false → h.logs = []) :
    Waiting h.handleError where
  refresh := by
    intro hopened
    show (h.hasOpened || h.shouldRefreshOnOpen) = true
    rw [show h.hasOpened = true from hopened]
    rfl
  empty := hempty

theorem Follows.empty_of_not_opened (hf : Follows sent h) (hopened : h.hasOpened = false) :
    h.logs = [] := by
  have ha := hf.attached
  cases hsource : h.source with
  | connecting => rw [hsource] at ha; exact ha.empty hopened
  | closed => rw [hsource] at ha; exact ha.empty hopened
  | streaming opened task =>
      rw [hsource] at ha
      cases opened with
      | false => exact ha.2.2.1.empty hopened
      | true => rw [ha.2.2.1] at hopened; cases hopened

theorem Follows.connect (hf : Follows sent h) (hsource : h.source = .connecting)
    (runs : List String) : Follows sent (h.connect sent runs) := by
  have ha : Waiting h := by
    have ha := hf.attached
    rwa [hsource] at ha
  have hstreaming : ∀ runFilter, runFilter = runIdParam h.activeRunId →
      Follows sent { h with source := .streaming false (.subscribe sent runFilter) } := by
    intro runFilter hfilter
    exact ⟨hf.shown, hf.few, hf.since, sound_subscribe sent runFilter, hfilter, ⟨ha.1, ha.2⟩, rfl⟩
  rw [EventStream.connect]
  cases hparam : runIdParam h.activeRunId with
  | none => exact hstreaming none hparam.symm
  | some runId =>
      by_cases hrun : runId ∈ runs
      · simp only [hrun, if_true]
        exact hstreaming (some runId) hparam.symm
      · simp only [hrun, if_false]
        have hw := waiting_handleError hf.empty_of_not_opened
        exact ⟨hf.shown, hf.few, hf.since, hw.1, hw.2⟩

theorem Follows.onTask (hf : Follows sent h) {f : EventTask tools → EventTask tools}
    (hturn : ∀ task, Turn sent task (f task)) : Follows sent (h.onTask f) := by
  rw [EventStream.onTask]
  cases hsource : h.source with
  | connecting => exact hf
  | closed => exact hf
  | streaming opened task =>
      have ha := hf.attached
      rw [hsource] at ha
      obtain ⟨hsound, hfilter, hrest⟩ := ha
      have ht := hturn task
      refine ⟨hf.shown, hf.few, hf.since, ht.sound hsound, ht.runFilter.trans hfilter, ?_⟩
      cases opened with
      | false => exact ⟨⟨hrest.1.1, hrest.1.2⟩, ht.handled.trans hrest.2⟩
      | true =>
          refine ⟨hrest.1, ⟨?_, ?_, ?_⟩⟩
          · rw [ht.handled]; exact hrest.2.logs
          · rw [ht.handled]; exact hrest.2.refetched
          · rw [ht.start]; exact hrest.2.begun

/-- `open` shows nothing of an earlier connection. -/
theorem Follows.opened (hf : Follows sent h) : Follows sent (h.opened sent) := by
  rw [EventStream.opened]
  cases hsource : h.source with
  | connecting => exact hf
  | closed => exact hf
  | streaming opened task =>
      cases opened with
      | true => exact hf
      | false =>
          have ha := hf.attached
          rw [hsource] at ha
          obtain ⟨hsound, hfilter, hwaiting, hhandled⟩ := ha
          have hlogs : (h.handleOpen sent.length).logs = [] := by
            rw [EventStream.handleOpen]
            by_cases hrefresh : h.shouldRefreshOnOpen = true
            · rw [if_pos hrefresh]; rfl
            · rw [if_neg hrefresh]
              refine hwaiting.empty ?_
              cases hopened : h.hasOpened with
              | false => rfl
              | true => exact absurd (hwaiting.refresh hopened) hrefresh
          have hrun : (h.handleOpen sent.length).activeRunId = h.activeRunId := by
            rw [EventStream.handleOpen]; split <;> rfl
          refine ⟨?_, ?_, ?_, hsound, ?_, rfl, ⟨?_, ?_, ?_⟩⟩
          · show (h.handleOpen sent.length).logs.Sublist _
            rw [hlogs]; exact List.nil_sublist _
          · show (h.handleOpen sent.length).logs.length ≤ maxLogs
            rw [hlogs, List.length_nil]
            exact Nat.zero_le maxLogs
          · intro _
            show (if h.hasOpened then h.since else some task.start).isSome
            by_cases hopened : h.hasOpened = true
            · rw [if_pos hopened]; exact hf.since hopened
            · rw [if_neg hopened]; rfl
          · exact hfilter.trans (congrArg runIdParam hrun.symm)
          · show (h.handleOpen sent.length).logs = _
            rw [hlogs, hhandled, List.map_nil, logsOf, List.filterMap_nil, List.rtake_nil]
          · rw [hhandled]
            intro posted hmem
            cases hmem
          · show (if h.hasOpened then h.since else some task.start) = some task.start ∨ _
            by_cases hopened : h.hasOpened = true
            · refine Or.inr ⟨sent.length, ?_, hsound.start_le.trans hsound.next_le⟩
              show _ ∈ (h.handleOpen sent.length).invalidated
              rw [EventStream.handleOpen, if_pos (hwaiting.refresh hopened)]
              exact List.mem_append_right _ List.mem_cons_self
            · rw [if_neg hopened]; exact Or.inl rfl

/-- What a message changes, by the event in it. -/
theorem handleEvent_spec (h : EventStream tools) (now : Nat) (event : DaemonEvent tools) :
    (h.handleEvent now event).activeRunId = h.activeRunId
      ∧ (h.handleEvent now event).hasOpened = h.hasOpened
      ∧ (h.handleEvent now event).since = h.since
      ∧ (h.handleEvent now event).invalidated
          = h.invalidated ++ (invalidates event).map (fun key => (key, now))
      ∧ (h.handleEvent now event).logs
          = (logsOf h.activeRunId [event]).foldl appendLogEntries h.logs := by
  cases event with
  | log event =>
      simp only [EventStream.handleEvent, EventStream.handleLog, logsOf, invalidates]
      by_cases hrun : some event.runId = h.activeRunId
      · simp [hrun]
      · simp [hrun]
  | run runId => exact ⟨rfl, rfl, rfl, rfl, rfl⟩
  | service runId => exact ⟨rfl, rfl, rfl, rfl, rfl⟩
  | task runId => exact ⟨rfl, rfl, rfl, rfl, rfl⟩
  | global => exact ⟨rfl, rfl, rfl, rfl, rfl⟩

/-- The window over what was handled, with one more event handled. -/
theorem window_handled (runId : Option String) (events : List (DaemonEvent tools))
    (event : DaemonEvent tools) :
    (logsOf runId [event]).foldl appendLogEntries ((logsOf runId events).rtake maxLogs)
      = (logsOf runId (events ++ [event])).rtake maxLogs := by
  rw [logsOf_append]
  have hcases : logsOf runId [event] = [] ∨ ∃ entry, logsOf runId [event] = [entry] := by
    cases event with
    | log event =>
        by_cases hrun : some event.runId = runId
        · exact Or.inr ⟨event, by simp [logsOf, hrun]⟩
        · exact Or.inl (by simp [logsOf, hrun])
    | run runId => exact Or.inl rfl
    | service runId => exact Or.inl rfl
    | task runId => exact Or.inl rfl
    | global => exact Or.inl rfl
  rcases hcases with hnone | ⟨entry, hentry⟩
  · rw [hnone, List.foldl_nil, List.append_nil]
  · rw [hentry, List.foldl_cons, List.foldl_nil, appendLogEntries_rtake]

theorem Follows.message (hf : Follows sent h) : Follows sent (h.message sent) := by
  rw [EventStream.message]
  cases hsource : h.source with
  | connecting => exact hf
  | closed => exact hf
  | streaming opened task =>
      cases opened with
      | false => exact hf
      | true =>
          cases hwire : task.wire with
          | nil => simp only [hwire]; exact hf
          | cons posted wire =>
              simp only [hwire]
              have ha := hf.attached
              rw [hsource] at ha
              obtain ⟨hsound, hfilter, hopened, hopen⟩ := ha
              obtain ⟨hrun, hhas, hsince, hinvalidated, hlogs⟩ :=
                handleEvent_spec h sent.length posted.1
              have hsound' : Sound sent
                  { task with wire := wire, handled := task.handled ++ [posted] } := by
                refine hsound.of_exact (Conveyor.Exact.of_eq rfl ?_) rfl hsound.start_le
                  hsound.next_le
                simp only [line, EventTask.onTheWay, hwire, List.append_assoc, List.cons_append,
                  List.nil_append]
                rfl
              have hwindow : (h.handleEvent sent.length posted.1).logs
                  = (logsOf h.activeRunId ((task.handled ++ [posted]).map Prod.fst)).rtake
                      maxLogs := by
                rw [hlogs, hopen.logs, window_handled, List.map_append]
                rfl
              have hsub : h.invalidated ⊆ (h.handleEvent sent.length posted.1).invalidated := by
                rw [hinvalidated]
                exact List.subset_append_left _ _
              refine ⟨?_, ?_, ?_, hsound', ?_, ?_, ⟨?_, ?_, ?_⟩⟩
              · show (h.handleEvent sent.length posted.1).logs.Sublist
                  (logsOf (h.handleEvent sent.length posted.1).activeRunId sent)
                rw [hwindow, hrun]
                exact (List.drop_sublist _ _).trans (logsOf_handled_sublist hsound' _)
              · show (h.handleEvent sent.length posted.1).logs.length ≤ maxLogs
                rw [hwindow]
                exact length_rtake_le _
              · intro _
                show (h.handleEvent sent.length posted.1).since.isSome
                rw [hsince]
                exact hf.since hopened
              · exact hfilter.trans (congrArg runIdParam hrun.symm)
              · exact hhas.trans hopened
              · show (h.handleEvent sent.length posted.1).logs
                  = (logsOf (h.handleEvent sent.length posted.1).activeRunId _).rtake maxLogs
                rw [hwindow, hrun]
              · intro other hmem
                rcases List.mem_append.mp hmem with hold | hnew
                · exact (hopen.refetched other hold).mono hsub
                · rw [List.mem_singleton.mp hnew]
                  have hplace : posted.2 < sent.length := by
                    have hmem' := hsound'.handled_sublist.subset
                      (List.mem_append_right task.handled (List.mem_singleton_self posted))
                    simpa using List.snd_lt_of_mem_zipIdx hmem'
                  intro query hq
                  obtain ⟨key, hkey, hprefix⟩ := invalidates_concerns hq
                  refine ⟨key, sent.length, ?_, hplace, hprefix⟩
                  show _ ∈ (h.handleEvent sent.length posted.1).invalidated
                  rw [hinvalidated]
                  exact List.mem_append_right _ (List.mem_map_of_mem hkey)
              · show (h.handleEvent sent.length posted.1).since = _ ∨ _
                rw [hsince]
                rcases hopen.begun with hfirst | ⟨now, hmem, hle⟩
                · exact Or.inl hfirst
                · exact Or.inr ⟨now, hsub hmem, hle⟩

theorem Follows.breaks (hf : Follows sent h) : Follows sent h.breaks := by
  have hw := waiting_handleError hf.empty_of_not_opened
  have hbroken : Follows sent { h.handleError with source := .connecting } :=
    ⟨hf.shown, hf.few, hf.since, hw.1, hw.2⟩
  rw [EventStream.breaks]
  cases hsource : h.source with
  | connecting => exact hbroken
  | closed => exact hf
  | streaming opened task => exact hbroken

theorem Follows.select (sent : List (DaemonEvent tools)) (h : EventStream tools)
    (activeRunId : Option String) : Follows sent (h.select activeRunId) :=
  have hm : Follows sent (EventStream.mount activeRunId) := follows_mount sent activeRunId
  ⟨hm.shown, hm.few, hm.since, ⟨hm.attached.1, hm.attached.2⟩⟩

theorem Follows.move (hf : Follows sent h) (runs : List String) (move : Move) :
    Follows sent (move.apply sent runs h) := by
  cases move with
  | connect =>
      rw [Move.apply]
      cases hsource : h.source with
      | connecting => exact hf.connect hsource runs
      | closed => exact hf
      | streaming opened task => exact hf
  | receive => exact hf.onTask (turn_receive sent)
  | push => exact hf.onTask (turn_push sent)
  | flush => exact hf.onTask (turn_flush sent)
  | opened => exact hf.opened
  | message => exact hf.message
  | breaks => exact hf.breaks
  | select activeRunId => exact Follows.select sent h activeRunId

end Dashboard

-- ── every run ─────────────────────────────────────────────────────────────────

/-- Every dashboard follows the stream. -/
def AllFollow (s : State tools) : Prop :=
  ∀ (i : Nat) h, s.dashboards[i]? = some h → Follows s.sent h

theorem step_follows (s : State tools) (a : Action tools) (hs : AllFollow s) :
    AllFollow (step s a) := by
  intro i h hat
  cases a with
  | emit event => exact (hs i h hat).emit event
  | setRuns runs => exact hs i h hat
  | mount activeRunId =>
      rcases List.mem_append.mp (List.mem_of_getElem? hat) with hold | hnew
      · obtain ⟨j, hj⟩ := List.getElem?_of_mem hold
        exact hs j h hj
      · rw [List.mem_singleton.mp hnew]
        exact follows_mount s.sent activeRunId
  | «at» j move =>
      have hmodify : (s.dashboards.modify j (move.apply s.sent s.runs ·))[i]? = some h := hat
      rw [List.getElem?_modify] at hmodify
      cases hold : s.dashboards[i]? with
      | none => rw [hold] at hmodify; cases hmodify
      | some old =>
          rw [hold] at hmodify
          have heq : (if j = i then move.apply s.sent s.runs old else old) = h :=
            Option.some.inj hmodify
          rw [← heq]
          split
          · exact (hs i old hold).move s.runs move
          · exact hs i old hold

theorem run_follows (as : List (Action tools)) : AllFollow (run step init as) :=
  run_invariant step step_follows as init (by intro i h hat; cases hat)

/-- In every state a dashboard shows at most 5000 log events, all of its run, in the order in
    which they were sent and each once at most. -/
theorem logs_in_order (as : List (Action tools)) :
    ∀ h ∈ (run step init as).dashboards,
      h.logs.Sublist (logsOf h.activeRunId (run step init as).sent)
        ∧ h.logs.length ≤ maxLogs := by
  intro h hmem
  obtain ⟨i, hi⟩ := List.getElem?_of_mem hmem
  have hf := run_follows as i h hi
  exact ⟨hf.shown, hf.few⟩

/-- A log event that a task of `run_id` emits. -/
def printed (runId message : String) : DaemonLogEvent plainLines :=
  ⟨runId, "api", "t1", "stdout", "info", message, message, none, ∅⟩

/-- The run `r1` is watched while it and another one print. -/
def watched : List (Action plainLines) :=
  [.setRuns ["r1", "r2"], .mount (some "r1"), .at 0 .connect, .at 0 .opened,
    .emit (.log (printed "r1" "ready")), .emit (.log (printed "r2" "started")),
    .emit (.log (printed "r1" "GET /")), .at 0 .receive, .at 0 .push, .at 0 .flush, .at 0 .message,
    .at 0 .receive, .at 0 .receive]

theorem logs_in_order_watched :
    ∃ h, (run step init watched).dashboards = [h] ∧ h.logs = [printed "r1" "ready"]
      ∧ h.logs.Sublist (logsOf h.activeRunId (run step init watched).sent)
      ∧ h.logs.length ≤ maxLogs :=
  ⟨_, rfl, rfl, logs_in_order watched _ List.mem_cons_self⟩

/-- The filter of a connection lets through all log events of its run. -/
theorem logsOf_due (task : EventTask tools) (sent : List (DaemonEvent tools)) {runId : String}
    (hfilter : task.runFilter = some runId) (place : Nat) :
    logsOf (some runId) ((task.due sent place).map Prod.fst)
      = logsOf (some runId) (sent.drop place) := by
  have hmap : (task.due sent place).map Prod.fst
      = (sent.drop place).filter (shouldDeliver task.runFilter) := by
    have hdrop : (sent.zipIdx.drop place).map Prod.fst = sent.drop place := by
      rw [List.map_drop, List.zipIdx_map_fst]
    rw [← hdrop, List.filter_map]
    rfl
  rw [hmap, logsOf, logsOf, List.filterMap_filter, hfilter]
  refine List.filterMap_congr ?_
  intro event _
  cases event with
  | log event =>
      by_cases hrun : some event.runId = some runId
      · simp [shouldDeliver, Option.some.inj hrun]
      · simp [hrun]
  | run runId => exact ite_self none
  | service runId => exact ite_self none
  | task runId => exact ite_self none
  | global => exact ite_self none

/-- While a connection that never lagged is open, every log event of the run that was sent
    since the connection began is shown or on its way, unless 5000 newer ones are shown. -/
theorem logs_complete (as : List (Action tools)) {h : EventStream tools} {task : EventTask tools}
    {runId : String} (hmem : h ∈ (run step init as).dashboards)
    (hsource : h.source = .streaming true task) (hlagged : task.lagged = false)
    (hrun : h.activeRunId = some runId) (hid : runId ≠ "") :
    ∃ older,
      older ++ (h.logs ++ logsOf (some runId)
          ((task.onTheWay (run step init as).sent).map Prod.fst))
        = logsOf (some runId) ((run step init as).sent.drop task.start)
      ∧ (older = [] ∨ h.logs.length = maxLogs) := by
  obtain ⟨i, hi⟩ := List.getElem?_of_mem hmem
  have ha := (run_follows as i h hi).attached
  rw [hsource] at ha
  obtain ⟨hsound, hfilter, hopened, hopen⟩ := ha
  have hparam : task.runFilter = some runId := by
    rw [hfilter, hrun]
    simp [runIdParam, hid]
  have hall : logsOf (some runId) (task.handled.map Prod.fst)
        ++ logsOf (some runId) ((task.onTheWay (run step init as).sent).map Prod.fst)
      = logsOf (some runId) ((run step init as).sent.drop task.start) := by
    rw [← logsOf_due task _ hparam, ← logsOf_append, ← List.map_append]
    exact congrArg (fun posted => logsOf (some runId) (posted.map Prod.fst))
      (hsound.complete hlagged)
  have hlogs := hopen.logs
  rw [hrun] at hlogs
  generalize logsOf (some runId) (task.handled.map Prod.fst) = handled at hall hlogs
  refine ⟨handled.take (handled.length - maxLogs), ?_, ?_⟩
  · rw [← List.append_assoc, hlogs, List.rtake, List.take_append_drop, hall]
  · rw [hlogs, List.rtake, List.length_drop]
    by_cases hfew : handled.length ≤ maxLogs
    · exact Or.inl (by rw [Nat.sub_eq_zero_of_le hfew, List.take_zero])
    · exact Or.inr (by omega)

/-- The line that is received but not handled yet is on its way. -/
theorem logs_complete_watched :
    ∃ (h : EventStream plainLines) (task : EventTask plainLines)
        (older : List (DaemonLogEvent plainLines)),
      (run step init watched).dashboards = [h] ∧ h.logs = [printed "r1" "ready"]
      ∧ older ++ (h.logs ++ logsOf (some "r1")
            ((task.onTheWay (run step init watched).sent).map Prod.fst))
          = logsOf (some "r1") ((run step init watched).sent.drop task.start)
      ∧ (older = [] ∨ h.logs.length = maxLogs) := by
  obtain ⟨older, heq, hle⟩ := logs_complete watched List.mem_cons_self rfl rfl rfl
    (show "r1" ≠ "" by decide)
  exact ⟨_, _, older, rfl, rfl, heq, hle⟩

/-- Take an open connection that never lagged, and an event that was sent since the first
    connection for this run began, on this connection or an earlier one or in between.
    Unless it is still on its way, every query it was about has been invalidated after it. -/
theorem changes_refetched (as : List (Action tools)) {h : EventStream tools}
    {task : EventTask tools} {since place : Nat} {event : DaemonEvent tools}
    (hmem : h ∈ (run step init as).dashboards)
    (hsource : h.source = .streaming true task) (hlagged : task.lagged = false)
    (hsince : h.since = some since) (hplace : since ≤ place)
    (hsent : (run step init as).sent[place]? = some event)
    (hdeliver : shouldDeliver (runIdParam h.activeRunId) event = true)
    (hway : (event, place) ∉ task.onTheWay (run step init as).sent) :
    Refetched h (event, place) := by
  obtain ⟨i, hi⟩ := List.getElem?_of_mem hmem
  have ha := (run_follows as i h hi).attached
  rw [hsource] at ha
  obtain ⟨hsound, hfilter, hopened, hopen⟩ := ha
  by_cases hstart : task.start ≤ place
  · -- Sent on this connection: it has been handled.
    have hdue : (event, place) ∈ task.due (run step init as).sent task.start := by
      refine List.mem_filter.mpr ⟨?_, ?_⟩
      · refine List.mem_of_getElem? (i := place - task.start) ?_
        rw [List.getElem?_drop, show task.start + (place - task.start) = place by omega]
        simp [hsent]
      · rw [hfilter]; exact hdeliver
    rw [show task.due (run step init as).sent task.start
      = line.given ((run step init as).sent, task) from rfl, ← hsound.complete hlagged] at hdue
    rcases List.mem_append.mp hdue with hhandled | hlate
    · exact hopen.refetched _ hhandled
    · exact absurd hlate hway
  · -- Sent before: `open` invalidated everything.
    intro query _
    rcases hopen.begun with hfirst | ⟨now, hmem', hle⟩
    · rw [hsince] at hfirst
      have heq := Option.some.inj hfirst
      omega
    · exact ⟨[], now, hmem', by show place < now; omega, List.nil_prefix⟩

/-- The run stops while the connection is broken. -/
def missed : List (Action plainLines) :=
  watched ++ [.at 0 .breaks, .emit (.run "r1"), .at 0 .connect, .at 0 .opened]

theorem changes_refetched_missed :
    ∃ h, (run step init missed).dashboards = [h] ∧ Refetched h (.run "r1", 3) :=
  ⟨_, rfl, changes_refetched missed List.mem_cons_self rfl rfl rfl (Nat.zero_le 3) rfl rfl
    List.not_mem_nil⟩

end DevstackEventStream
