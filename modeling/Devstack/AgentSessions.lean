import Devstack.Lib.Choice
import Devstack.Lib.Conveyor
import Devstack.Lib.Interleaving
import Devstack.Timestamps

/-! # Agent sessions — the messages queued for wrapped agents

    `src/stores/agent_sessions.rs` and `src/model/agent_session.rs`, the commands of
    `src/app/commands/agent.rs` and the query of `src/app/queries/agent.rs`.  Each
    operation of the store runs under its lock and first drops the sessions whose
    process is gone; `share_agent_message` takes the lock twice, so it is a task of two
    steps.  A request that ends leaves its answer in `answers`.

    A session is a queue between the requests that send to it and those that poll it.
    `messages_once`: what the polls of an id were answered, followed by what is still
    queued, are messages that were accepted for the id, in their order, each at most
    once, and all of them as long as no session goes with messages queued. -/

namespace DevstackAgentSessions

open DevstackModel DevstackMachine DevstackInterleaving DevstackConveyor DevstackChoice
open DevstackTimestamps DevstackPrintedOrder

-- ── model/agent_session.rs ────────────────────────────────────────────────────

structure AgentSessionState where
  agentId : String
  projectDir : String
  stack : Option String
  command : String
  pid : UInt32
  createdAt : String
  pendingMessages : List String
  deriving DecidableEq

/-- `AgentSessionRegisterRequest`. -/
structure AgentSessionRegisterRequest where
  agentId : String
  projectDir : String
  stack : Option String
  command : String
  pid : UInt32
  deriving DecidableEq

/-- `AgentSessionState::new`. -/
def AgentSessionState.new (now : String) (request : AgentSessionRegisterRequest) :
    AgentSessionState :=
  ⟨request.agentId, request.projectDir, request.stack, request.command, request.pid, now, []⟩

/-- `AgentSessionState::queue_message`. -/
def AgentSessionState.queueMessage (session : AgentSessionState) (message : String) :
    AgentSessionState × Nat :=
  let pending := session.pendingMessages ++ [message]
  ({ session with pendingMessages := pending }, pending.length)

/-- `AgentSessionState::drain_messages`. -/
def AgentSessionState.drainMessages (session : AgentSessionState) :
    AgentSessionState × List String :=
  ({ session with pendingMessages := [] }, session.pendingMessages)

/-- `AgentSessionState::update`. -/
def AgentSessionState.update (session : AgentSessionState) (request : AgentSessionRegisterRequest) :
    AgentSessionState :=
  { session with
    projectDir := request.projectDir
    stack := request.stack
    command := request.command
    pid := request.pid }

-- ── stores/agent_sessions.rs ──────────────────────────────────────────────────

/-- What `kill(pid, 0)` comes back with. -/
inductive KillReply where
  | delivered
  | notPermitted
  | failed
  deriving DecidableEq

/-- The processes and the clock at the moment of an operation. -/
structure Env where
  kill : UInt32 → KillReply
  now : String

/-- `is_pid_alive`. -/
def isPidAlive (env : Env) (pid : UInt32) : Bool :=
  if pid = 0 ∨ pid > 2147483647 then false
  else
    match env.kill pid with
    | .delivered => true
    | .notPermitted => true
    | .failed => false

abbrev Sessions := BTreeMap AgentSessionState

/-- `AgentSession` of `src/api.rs`. -/
structure AgentSession where
  agentId : String
  projectDir : String
  stack : Option String
  command : String
  pid : UInt32
  createdAt : String
  deriving DecidableEq

def convertToApiSession (session : AgentSessionState) : AgentSession :=
  ⟨session.agentId, session.projectDir, session.stack, session.command, session.pid,
    session.createdAt⟩

def cleanupStaleSessionsInternal (env : Env) (sessions : Sessions) : Sessions :=
  sessions.filter (fun _ session => isPidAlive env session.pid)

def registerSession (env : Env) (sessions : Sessions) (request : AgentSessionRegisterRequest) :
    Sessions × AgentSession :=
  let sessions := cleanupStaleSessionsInternal env sessions
  let entry := (sessions[request.agentId]?).getD (.new env.now request)
  let entry := entry.update request
  (sessions.insert request.agentId entry, convertToApiSession entry)

def unregisterSession (env : Env) (sessions : Sessions) (agentId : String) : Sessions × Bool :=
  let sessions := cleanupStaleSessionsInternal env sessions
  (sessions.erase agentId, decide (agentId ∈ sessions))

/-- The error of a call for a session that is not there. -/
def sessionNotFound (agentId : String) : String := "agent session " ++ agentId ++ " not found"

def queueMessage (env : Env) (sessions : Sessions) (agentId message : String) :
    Sessions × Except String Nat :=
  let sessions := cleanupStaleSessionsInternal env sessions
  match sessions[agentId]? with
  | none => (sessions, .error (sessionNotFound agentId))
  | some session =>
      let queued := session.queueMessage message
      (sessions.insert agentId queued.1, .ok queued.2)

def pollMessages (env : Env) (sessions : Sessions) (agentId : String) :
    Sessions × Except String (List String) :=
  let sessions := cleanupStaleSessionsInternal env sessions
  match sessions[agentId]? with
  | none => (sessions, .error (sessionNotFound agentId))
  | some session =>
      let drained := session.drainMessages
      (sessions.insert agentId drained.1, .ok drained.2)

/-- The comparison of `find_latest_for_project`. -/
def createdBefore (a b : AgentSessionState) : Bool :=
  decide (a.createdAt < b.createdAt ∨ a.createdAt = b.createdAt ∧ a.agentId ≤ b.agentId)

/-- The sessions of a project, in the order of the map. -/
def ofProject (sessions : Sessions) (projectDir : String) : List AgentSessionState :=
  (sessions.toList.map (·.2)).filter (fun session => decide (session.projectDir = projectDir))

def findLatestForProject (env : Env) (sessions : Sessions) (projectDir : String) :
    Sessions × Option AgentSession :=
  let sessions := cleanupStaleSessionsInternal env sessions
  (sessions, (maxBy createdBefore (ofProject sessions projectDir)).map convertToApiSession)

-- ── app/commands/agent.rs ─────────────────────────────────────────────────────

/-- `AppError` of `src/app/error.rs`. -/
inductive AppError where
  | notFound (message : String)
  | badRequest (message : String)
  | internal (message : String)
  deriving DecidableEq

structure ShareAgentMessageRequest where
  projectDir : String
  command : Option String
  message : String
  deriving DecidableEq

structure ShareAgentMessageResponse where
  agentId : String
  queued : Nat
  deriving DecidableEq

/-- The message that `share_agent_message` queues. -/
def shareText (request : ShareAgentMessageRequest) : String :=
  match request.command with
  | some command =>
      if command ≠ "" then request.message ++ "\nRun `" ++ command ++ "`" else request.message
  | none => request.message

/-- An answered request. -/
inductive Answer where
  | registered (session : AgentSession)
  | unregistered (agentId : String) (result : Except AppError Unit)
  | posted (agentId message : String) (result : Except AppError Nat)
  | polled (agentId : String) (result : Except AppError (List String))
  | latest (projectDir : String) (session : Option AgentSession)
  | shared (request : ShareAgentMessageRequest) (result : Except AppError ShareAgentMessageResponse)

/-- A request in progress. -/
inductive Task where
  | register (request : AgentSessionRegisterRequest)
  | unregister (agentId : String)
  | post (agentId message : String)
  | poll (agentId : String)
  | latest (projectDir : String)
  | share (request : ShareAgentMessageRequest)
  | sharing (session : AgentSession) (request : ShareAgentMessageRequest)
  deriving DecidableEq

structure World where
  sessions : Sessions
  answers : List Answer

def World.answer (w : World) (sessions : Sessions) (answer : Answer) : World :=
  ⟨sessions, w.answers ++ [answer]⟩

/-- The next step of a request. -/
def step (env : Env) (w : World) : Task → World × List Task
  | .register request =>
      let result := registerSession env w.sessions request
      (w.answer result.1 (.registered result.2), [])
  | .unregister agentId =>
      let result := unregisterSession env w.sessions agentId
      (w.answer result.1 (.unregistered agentId
        (if result.2 then .ok () else .error (.notFound (sessionNotFound agentId)))), [])
  | .post agentId message =>
      let result := queueMessage env w.sessions agentId message
      (w.answer result.1 (.posted agentId message (result.2.mapError .internal)), [])
  | .poll agentId =>
      let result := pollMessages env w.sessions agentId
      (w.answer result.1 (.polled agentId (result.2.mapError .internal)), [])
  | .latest projectDir =>
      let result := findLatestForProject env w.sessions projectDir
      (w.answer result.1 (.latest projectDir result.2), [])
  | .share request =>
      let result := findLatestForProject env w.sessions request.projectDir
      match result.2 with
      | none =>
          (w.answer result.1 (.shared request (.error (.notFound
            ("no active agent session found for project " ++ request.projectDir)))), [])
      | some session => ({ w with sessions := result.1 }, [.sharing session request])
  | .sharing session request =>
      let result := queueMessage env w.sessions session.agentId (shareText request)
      (w.answer result.1 (.shared request
        ((result.2.mapError .internal).map (fun queued => ⟨session.agentId, queued⟩))), [])

/-- The schedules of the requests; an answer of the environment is taken at each step. -/
abbrev schedule : World × List Task → Nat × Env → World × List Task := stepAt step

-- ── the queue of an id ────────────────────────────────────────────────────────

/-- The messages an answer says were queued for an id. -/
def Answer.accepted (agentId : String) : Answer → List String
  | .posted id message (.ok _) => if id = agentId then [message] else []
  | .shared request (.ok response) =>
      if response.agentId = agentId then [shareText request] else []
  | _ => []

/-- The messages an answer hands over from the queue of an id. -/
def Answer.delivered (agentId : String) : Answer → List String
  | .polled id (.ok messages) => if id = agentId then messages else []
  | _ => []

def accepted (agentId : String) (w : World) : List String :=
  w.answers.flatMap (Answer.accepted agentId)

def delivered (agentId : String) (w : World) : List String :=
  w.answers.flatMap (Answer.delivered agentId)

/-- The queue of an id; empty without a session. -/
def pending (agentId : String) (sessions : Sessions) : List String :=
  ((sessions[agentId]?).map (·.pendingMessages)).getD []

/-- From the requests that send to an id to those that poll it. -/
def mailbox (agentId : String) : Conveyor (World × List Task) String where
  given s := accepted agentId s.1
  content s := delivered agentId s.1 ++ pending agentId s.1.sessions

/-- The process of the session of the id, if there is one, is alive. -/
def Living (agentId : String) (env : Env) (sessions : Sessions) : Prop :=
  ∀ session, sessions[agentId]? = some session → isPidAlive env session.pid = true

instance (agentId : String) (env : Env) (sessions : Sessions) :
    Decidable (Living agentId env sessions) :=
  decidable_of_iff ((sessions[agentId]?).all (fun session => isPidAlive env session.pid) = true) (by
    rw [Living]
    cases sessions[agentId]? <;> simp)

/-- Nothing is queued for the id; or its session is living, and the next step does not
    unregister it. -/
def Kept (agentId : String) (s : World × List Task) (a : Nat × Env) : Prop :=
  pending agentId s.1.sessions = []
    ∨ Living agentId a.2 s.1.sessions ∧ s.2[a.1]? ≠ some (.unregister agentId)

instance (agentId : String) (s : World × List Task) (a : Nat × Env) :
    Decidable (Kept agentId s a) := inferInstanceAs (Decidable (_ ∨ _ ∧ _))

section Mailbox

variable {env : Env} {sessions : Sessions} {agentId : String}

@[simp] theorem accepted_answer (w : World) (answer : Answer) :
    accepted agentId (w.answer sessions answer)
      = accepted agentId w ++ answer.accepted agentId := by
  simp [accepted, World.answer]

@[simp] theorem delivered_answer (w : World) (answer : Answer) :
    delivered agentId (w.answer sessions answer)
      = delivered agentId w ++ answer.delivered agentId := by
  simp [delivered, World.answer]

theorem getElem?_cleanup (id : String) :
    (cleanupStaleSessionsInternal env sessions)[id]?
      = (sessions[id]?).filter (fun session => isPidAlive env session.pid) := by
  rw [cleanupStaleSessionsInternal, Std.ExtTreeMap.getElem?_filter']

theorem pending_cleanup_sublist (agentId : String) (env : Env) (sessions : Sessions) :
    (pending agentId (cleanupStaleSessionsInternal env sessions)).Sublist
      (pending agentId sessions) := by
  rw [pending, pending, getElem?_cleanup]
  cases hget : sessions[agentId]? with
  | none => exact List.Sublist.refl _
  | some session =>
      rw [Option.filter_some]
      cases halive : isPidAlive env session.pid with
      | false => exact List.nil_sublist _
      | true => exact List.Sublist.refl _

theorem pending_cleanup (hliving : Living agentId env sessions) :
    pending agentId (cleanupStaleSessionsInternal env sessions) = pending agentId sessions := by
  rw [pending, pending, getElem?_cleanup]
  cases hget : sessions[agentId]? with
  | none => rfl
  | some session => rw [Option.filter_some, if_pos (hliving session hget)]

/-- Registering keeps the queue, of a session that is there and of the others. -/
theorem pending_register (request : AgentSessionRegisterRequest) :
    pending agentId (registerSession env sessions request).1
      = pending agentId (cleanupStaleSessionsInternal env sessions) := by
  by_cases heq : request.agentId = agentId
  · rw [registerSession, pending, pending, heq, Std.ExtTreeMap.getElem?_insert_self]
    cases (cleanupStaleSessionsInternal env sessions)[agentId]? with
    | none => rfl
    | some session => rfl
  · simp [registerSession, pending, Std.ExtTreeMap.getElem?_insert, heq]

theorem pending_unregister {id : String} (hne : id ≠ agentId) :
    pending agentId (unregisterSession env sessions id).1
      = pending agentId (cleanupStaleSessionsInternal env sessions) := by
  simp [unregisterSession, pending, Std.ExtTreeMap.getElem?_erase, hne]

theorem pending_unregistered :
    pending agentId (unregisterSession env sessions agentId).1 = [] := by
  rw [unregisterSession, pending, Std.ExtTreeMap.getElem?_erase_self]
  rfl

/-- A message is queued exactly if the call says so. -/
theorem pending_queueMessage (id message : String) :
    pending agentId (queueMessage env sessions id message).1
      = pending agentId (cleanupStaleSessionsInternal env sessions)
        ++ (if id = agentId ∧ (queueMessage env sessions id message).2.isOk
            then [message] else []) := by
  rw [queueMessage]
  cases hget : (cleanupStaleSessionsInternal env sessions)[id]? with
  | none => simp [Except.isOk, Except.toBool]
  | some session =>
      by_cases heq : id = agentId
      · subst heq
        simp [pending, hget, AgentSessionState.queueMessage, Except.isOk, Except.toBool]
      · simp [pending, Std.ExtTreeMap.getElem?_insert, heq]

/-- A poll hands over the whole queue, or there is none. -/
theorem pending_pollMessages (agentId : String) (env : Env) (sessions : Sessions) (id : String) :
    (Answer.polled id ((pollMessages env sessions id).2.mapError .internal)).delivered agentId
        ++ pending agentId (pollMessages env sessions id).1
      = pending agentId (cleanupStaleSessionsInternal env sessions) := by
  rw [pollMessages]
  cases hget : (cleanupStaleSessionsInternal env sessions)[id]? with
  | none => simp [Except.mapError, Answer.delivered]
  | some session =>
      by_cases heq : id = agentId
      · subst heq
        simp [pending, hget, AgentSessionState.drainMessages, Except.mapError, Answer.delivered]
      · simp [pending, Std.ExtTreeMap.getElem?_insert, heq, Except.mapError, Answer.delivered]

theorem accepted_posted (id message : String) (result : Except String Nat) :
    (Answer.posted id message (result.mapError .internal)).accepted agentId
      = if id = agentId ∧ result.isOk then [message] else [] := by
  cases result with
  | error e => simp [Except.mapError, Except.isOk, Except.toBool, Answer.accepted]
  | ok n => simp [Except.mapError, Except.isOk, Except.toBool, Answer.accepted]

theorem accepted_shared (id : String) (request : ShareAgentMessageRequest)
    (result : Except String Nat) :
    (Answer.shared request
        ((result.mapError .internal).map (fun queued => ⟨id, queued⟩))).accepted agentId
      = if id = agentId ∧ result.isOk then [shareText request] else [] := by
  cases result with
  | error e => simp [Except.mapError, Except.map, Except.isOk, Except.toBool, Answer.accepted]
  | ok n => simp [Except.mapError, Except.map, Except.isOk, Except.toBool, Answer.accepted]

/-- What a step answers and leaves in the queue is what the cleanup left, and the message
    it accepted. -/
def Conveys (agentId : String) (env : Env) (w : World) (put : List String) (next : World) : Prop :=
  accepted agentId next = accepted agentId w ++ put
    ∧ delivered agentId next ++ pending agentId next.sessions
      = delivered agentId w ++ pending agentId (cleanupStaleSessionsInternal env w.sessions) ++ put

/-- A step without a message for the queue. -/
theorem conveys_nothing {w : World} {answer : Answer}
    (haccepted : answer.accepted agentId = [])
    (hcontent : answer.delivered agentId ++ pending agentId sessions
      = pending agentId (cleanupStaleSessionsInternal env w.sessions)) :
    Conveys agentId env w [] (w.answer sessions answer) := by
  constructor
  · rw [accepted_answer, haccepted]
  · rw [delivered_answer, List.append_assoc, List.append_nil, ← hcontent]
    rfl

theorem conveys_queued {w : World} {answer : Answer} (id message : String)
    (haccepted : answer.accepted agentId
      = if id = agentId ∧ (queueMessage env w.sessions id message).2.isOk then [message] else [])
    (hdelivered : answer.delivered agentId = []) :
    Conveys agentId env w (answer.accepted agentId)
      (w.answer (queueMessage env w.sessions id message).1 answer) := by
  constructor
  · rw [accepted_answer]
  · rw [delivered_answer, hdelivered, List.append_nil, haccepted, List.append_assoc,
      ← pending_queueMessage]
    rfl

/-- A step of a request loses only what the cleanup drops, unless it unregisters the id. -/
theorem step_conveys (env : Env) (w : World) {task : Task} (htask : task ≠ .unregister agentId) :
    ∃ put, Conveys agentId env w put (step env w task).1 := by
  cases task with
  | register request => exact ⟨[], conveys_nothing rfl (pending_register request)⟩
  | unregister id =>
      have hne : id ≠ agentId := by
        intro heq
        exact htask (by rw [heq])
      exact ⟨[], conveys_nothing rfl (pending_unregister hne)⟩
  | post id message => exact ⟨_, conveys_queued id message (accepted_posted id message _) rfl⟩
  | poll id =>
      refine ⟨[], conveys_nothing ?_ (pending_pollMessages agentId env w.sessions id)⟩
      cases (pollMessages env w.sessions id).2 <;> rfl
  | latest projectDir => exact ⟨[], conveys_nothing rfl rfl⟩
  | share request =>
      rw [step]
      cases (findLatestForProject env w.sessions request.projectDir).2 with
      | none => exact ⟨[], conveys_nothing rfl rfl⟩
      | some session =>
          refine ⟨[], ?_, ?_⟩
          · exact (List.append_nil _).symm
          · exact (List.append_nil _).symm
  | sharing session request =>
      refine ⟨_, conveys_queued session.agentId (shareText request)
        (accepted_shared session.agentId request _) ?_⟩
      rfl

/-- No step makes up a message, repeats one or changes their order. -/
theorem schedule_lossy (agentId : String) (s : World × List Task) (a : Nat × Env) :
    (mailbox agentId).Lossy s (schedule s a) := by
  cases htask : s.2[a.1]? with
  | none =>
      rw [schedule, stepAt_none step htask]
      exact (Conveyor.Exact.of_eq rfl rfl).lossy
  | some task =>
      rw [schedule, stepAt_some step htask]
      by_cases hunregister : task = .unregister agentId
      · rw [hunregister]
        refine Conveyor.Lossy.of_sublist ?_ ?_
        · exact (accepted_answer _ _).trans (List.append_nil _)
        · show (delivered agentId (s.1.answer _ _) ++ pending agentId _).Sublist _
          rw [delivered_answer]
          show (delivered agentId s.1 ++ [] ++ pending agentId
            (unregisterSession a.2 s.1.sessions agentId).1).Sublist _
          rw [pending_unregistered, List.append_nil, List.append_nil]
          exact List.sublist_append_left _ _
      · obtain ⟨put, hgiven, hcontent⟩ := step_conveys a.2 s.1 hunregister
        refine ⟨put, hgiven, ?_⟩
        show (delivered agentId (step a.2 s.1 task).1 ++ pending agentId _).Sublist _
        rw [hcontent]
        exact ((List.Sublist.refl _).append
          (pending_cleanup_sublist agentId a.2 s.1.sessions)).append (List.Sublist.refl _)

/-- A step that keeps what is queued loses nothing. -/
theorem schedule_exact {s : World × List Task} {a : Nat × Env} (hkept : Kept agentId s a) :
    (mailbox agentId).Exact s (schedule s a) := by
  have hcleanup : pending agentId (cleanupStaleSessionsInternal a.2 s.1.sessions)
      = pending agentId s.1.sessions := by
    rcases hkept with hempty | ⟨hliving, -⟩
    · have hsub := pending_cleanup_sublist agentId a.2 s.1.sessions
      rw [hempty] at hsub ⊢
      exact List.sublist_nil.mp hsub
    · exact pending_cleanup hliving
  cases htask : s.2[a.1]? with
  | none =>
      rw [schedule, stepAt_none step htask]
      exact Conveyor.Exact.of_eq rfl rfl
  | some task =>
      rw [schedule, stepAt_some step htask]
      by_cases hunregister : task = .unregister agentId
      · -- with nothing in the queue the session may go
        subst hunregister
        have hempty : pending agentId s.1.sessions = [] := by
          rcases hkept with hempty | ⟨-, hother⟩
          · exact hempty
          · exact absurd htask hother
        refine Conveyor.Exact.of_eq ((accepted_answer _ _).trans (List.append_nil _)) ?_
        show delivered agentId (s.1.answer _ _) ++ pending agentId
            (unregisterSession a.2 s.1.sessions agentId).1
          = delivered agentId s.1 ++ pending agentId s.1.sessions
        rw [delivered_answer, pending_unregistered, hempty]
        exact congrArg (· ++ []) (List.append_nil _)
      · obtain ⟨put, hgiven, hcontent⟩ := step_conveys a.2 s.1 hunregister
        refine ⟨put, hgiven, ?_⟩
        rw [hcleanup] at hcontent
        exact hcontent

end Mailbox

-- ── messages go through once ──────────────────────────────────────────────────

/-- Requests come in one after the other: a schedule over all that ever come covers them,
    as a request that has not been stepped has done nothing. -/
theorem messages_once (agentId : String) (w : World) (hlog : w.answers = [])
    (requests : List Task) (as : List (Nat × Env)) :
    let s := run schedule (w, requests) as
    (delivered agentId s.1 ++ pending agentId s.1.sessions).Sublist
        (pending agentId w.sessions ++ accepted agentId s.1)
      ∧ (Along schedule (Kept agentId) (w, requests) as →
        delivered agentId s.1 ++ pending agentId s.1.sessions
          = pending agentId w.sessions ++ accepted agentId s.1) := by
  have hgiven : (mailbox agentId).given (w, requests) = [] := by
    show w.answers.flatMap _ = []
    rw [hlog]
    rfl
  have hcontent : (mailbox agentId).content (w, requests) = pending agentId w.sessions := by
    show w.answers.flatMap _ ++ _ = _
    rw [hlog]
    rfl
  constructor
  · obtain ⟨put, hput, hsub⟩ :=
      Conveyor.run_lossy (schedule_lossy agentId) as (w, requests)
    rw [hgiven, List.nil_append] at hput
    rw [hcontent, ← hput] at hsub
    exact hsub
  · intro hkept
    obtain ⟨put, hput, heq⟩ :=
      Conveyor.run_exact (fun s a => schedule_exact) as (w, requests) hkept
    rw [hgiven, List.nil_append] at hput
    rw [hcontent, ← hput] at heq
    exact heq

/-- The daemon at an instant at which every process is alive. -/
def quiet : Env := ⟨fun _ => .delivered, "2025-01-01T00:00:00Z"⟩

/-- A registration, a message, a message shared for the project, two polls, and the end of
    the session. -/
def twoMessages : List Task :=
  [.register ⟨"agent-1", "/web", none, "codex", 7⟩, .post "agent-1" "first",
    .share ⟨"/web", some "devstack logs", "second"⟩, .poll "agent-1", .poll "agent-1",
    .unregister "agent-1"]

/-- The first poll comes between the two steps that share a message. -/
def twoPolls : List (Nat × Env) :=
  [(0, quiet), (0, quiet), (0, quiet), (1, quiet), (0, quiet), (0, quiet), (0, quiet)]

theorem messages_once_two :
    let s := run schedule (⟨∅, []⟩, twoMessages) twoPolls
    accepted "agent-1" s.1 = ["first", "second\nRun `devstack logs`"]
      ∧ s.1.sessions.isEmpty = true
      ∧ delivered "agent-1" s.1 ++ pending "agent-1" s.1.sessions
        = pending "agent-1" ∅ ++ accepted "agent-1" s.1 :=
  ⟨by decide +kernel, by decide +kernel,
    (messages_once "agent-1" ⟨∅, []⟩ rfl twoMessages twoPolls).2 (by decide +kernel)⟩

-- ── the newest session of a project ───────────────────────────────────────────

/-- The sessions a request for the project chooses from. -/
def candidates (env : Env) (sessions : Sessions) (projectDir : String) : List AgentSessionState :=
  ofProject (cleanupStaleSessionsInternal env sessions) projectDir

/-- The session that is found was created no earlier than any other of the project. -/
def FindsNewest (projectDir : String) (env : Env) (sessions : Sessions) : Prop :=
  ∀ found, (findLatestForProject env sessions projectDir).2 = some found →
    ∀ made, found.createdAt = nowRfc3339 made →
      ∀ c ∈ candidates env sessions projectDir, ∀ t,
        c.createdAt = nowRfc3339 t → t ≤ made

/-- No session of the project reads later than the one that was created last. -/
def InOrder (projectDir : String) (env : Env) (sessions : Sessions) : Prop :=
  ∀ m ∈ candidates env sessions projectDir, ∀ made,
    m.createdAt = nowRfc3339 made →
      (∀ c ∈ candidates env sessions projectDir, ∀ t,
        c.createdAt = nowRfc3339 t → t ≤ made) →
      ∀ c ∈ candidates env sessions projectDir, ∀ t,
        c.createdAt = nowRfc3339 t →
          ¬ ReadsLater t made

/-- Every session was created at an instant. -/
def Stamped (sessions : Sessions) : Prop :=
  ∀ (id : String) (session : AgentSessionState), sessions[id]? = some session →
    ∃ t, session.createdAt = nowRfc3339 t

section Newest

variable {env : Env} {sessions : Sessions} {projectDir : String}

theorem createdBefore_comparison : Comparison createdBefore where
  trans := by
    intro a b c hab hbc
    simp only [createdBefore, decide_eq_true_eq] at hab hbc ⊢
    rcases hab with hab | ⟨hab, hid⟩
    · rcases hbc with hbc | ⟨hbc, -⟩
      · exact Or.inl (lt_trans hab hbc)
      · exact Or.inl (hbc ▸ hab)
    · rw [hab]
      exact hbc.imp_right (fun h => ⟨h.1, le_trans hid h.2⟩)
  total := by
    intro a b
    simp only [createdBefore, Bool.or_eq_true, decide_eq_true_eq]
    rcases lt_trichotomy a.createdAt b.createdAt with hlt | heq | hlt
    · exact Or.inl (Or.inl hlt)
    · rcases le_total a.agentId b.agentId with hid | hid
      · exact Or.inl (Or.inr ⟨heq, hid⟩)
      · exact Or.inr (Or.inr ⟨heq.symm, hid⟩)
    · exact Or.inr (Or.inl hlt)

theorem le_of_createdBefore {a b : AgentSessionState} (h : createdBefore a b = true) :
    a.createdAt ≤ b.createdAt := by
  simp only [createdBefore, decide_eq_true_eq] at h
  rcases h with h | ⟨h, -⟩
  · exact h.le
  · exact h.le

theorem Stamped.cleanup (h : Stamped sessions) :
    Stamped (cleanupStaleSessionsInternal env sessions) := by
  intro id session hget
  rw [getElem?_cleanup] at hget
  exact h id session (Option.eq_some_of_filter_eq_some hget)

theorem Stamped.insert (h : Stamped sessions) {id : String} {session : AgentSessionState}
    (hsession : ∃ t, session.createdAt = nowRfc3339 t) : Stamped (sessions.insert id session) := by
  intro id' session' hget
  rw [Std.ExtTreeMap.getElem?_insert] at hget
  split at hget
  · rw [← Option.some.inj hget]
    exact hsession
  · exact h id' session' hget

theorem stamped_queueMessage (h : Stamped sessions) (id message : String) :
    Stamped (queueMessage env sessions id message).1 := by
  rw [queueMessage]
  cases hget : (cleanupStaleSessionsInternal env sessions)[id]? with
  | none => exact h.cleanup
  | some session => exact h.cleanup.insert (h.cleanup id session hget)

theorem stamped_pollMessages (h : Stamped sessions) (id : String) :
    Stamped (pollMessages env sessions id).1 := by
  rw [pollMessages]
  cases hget : (cleanupStaleSessionsInternal env sessions)[id]? with
  | none => exact h.cleanup
  | some session => exact h.cleanup.insert (h.cleanup id session hget)

/-- A session keeps the time of its creation when it is registered again. -/
theorem stamped_registerSession (h : Stamped sessions) (hnow : ∃ t, env.now = nowRfc3339 t)
    (request : AgentSessionRegisterRequest) : Stamped (registerSession env sessions request).1 := by
  refine h.cleanup.insert ?_
  cases hget : (cleanupStaleSessionsInternal env sessions)[request.agentId]? with
  | none => exact hnow
  | some session => exact h.cleanup request.agentId session hget

theorem stamped_step {w : World} (h : Stamped w.sessions) (hnow : ∃ t, env.now = nowRfc3339 t)
    (task : Task) : Stamped (step env w task).1.sessions := by
  cases task with
  | register request => exact stamped_registerSession h hnow request
  | unregister id =>
      intro id' session hget
      have hget : ((cleanupStaleSessionsInternal env w.sessions).erase id)[id']? = some session :=
        hget
      rw [Std.ExtTreeMap.getElem?_erase] at hget
      split at hget
      · cases hget
      · exact h.cleanup id' session hget
  | post id message => exact stamped_queueMessage h id message
  | poll id => exact stamped_pollMessages h id
  | latest projectDir => exact h.cleanup
  | share request =>
      rw [step]
      cases (findLatestForProject env w.sessions request.projectDir).2 with
      | none => exact h.cleanup
      | some session => exact h.cleanup
  | sharing session request => exact stamped_queueMessage h session.agentId (shareText request)

theorem stamped_candidates (h : Stamped sessions) {c : AgentSessionState}
    (hmem : c ∈ candidates env sessions projectDir) : ∃ t, c.createdAt = nowRfc3339 t := by
  have hmem := List.mem_of_mem_filter hmem
  obtain ⟨⟨id, session⟩, hpair, rfl⟩ := List.mem_map.mp hmem
  rw [Std.ExtTreeMap.mem_toList_iff_getElem?_eq_some] at hpair
  exact h.cleanup id session hpair

/-- The instants of the candidates. -/
theorem exists_made (h : Stamped sessions) {m : AgentSessionState}
    (hm : m ∈ candidates env sessions projectDir) :
    ∃ made : AgentSessionState → Instant, ∀ c ∈ candidates env sessions projectDir, ∀ t,
      c.createdAt = nowRfc3339 t ↔ t = made c := by
  classical
  obtain ⟨other, -⟩ := stamped_candidates h hm
  refine ⟨fun c => if hc : ∃ t, c.createdAt = nowRfc3339 t then hc.choose else other, ?_⟩
  intro c hc t
  have hstamped := stamped_candidates h hc
  beta_reduce
  rw [dif_pos hstamped]
  constructor
  · intro ht
    exact text_injective (ht.symm.trans hstamped.choose_spec)
  · rintro rfl
    exact hstamped.choose_spec

theorem findLatestForProject_found :
    (findLatestForProject env sessions projectDir).2
      = (maxBy createdBefore (candidates env sessions projectDir)).map convertToApiSession := rfl

theorem findsNewest_iff (h : Stamped sessions) :
    FindsNewest projectDir env sessions ↔ InOrder projectDir env sessions := by
  rw [FindsNewest, findLatestForProject_found]
  cases hfound : maxBy createdBefore (candidates env sessions projectDir) with
  | none =>
      have hnil := maxBy_eq_none.mp hfound
      constructor
      · intro _ m hm
        rw [hnil] at hm
        cases hm
      · intro _ found hget
        cases hget
  | some chosen =>
      obtain ⟨hmem, hgreatest⟩ := maxBy_spec createdBefore_comparison hfound
      obtain ⟨made, hmade⟩ := exists_made h hmem
      have htext : ∀ c ∈ candidates env sessions projectDir,
          nowRfc3339 (made c) ≤ nowRfc3339 (made chosen) := by
        intro c hc
        rw [← (hmade c hc _).mpr rfl, ← (hmade chosen hmem _).mpr rfl]
        exact le_of_createdBefore (hgreatest c hc)
      have hiff := latest_iff made text_injective hmem htext
      constructor
      · intro hnewest m hm t ht hmax c hc t' ht' hlater
        rw [(hmade m hm t).mp ht] at hmax hlater
        rw [(hmade c hc t').mp ht'] at hlater
        have hmax : ∀ c ∈ candidates env sessions projectDir, made c ≤ made m :=
          fun c hc => hmax c hc (made c) ((hmade c hc _).mpr rfl)
        refine hiff.mp (fun a ha => ?_) m hm hmax c hc ((text_lt_iff (hmax c hc)).mpr hlater)
        exact hnewest (convertToApiSession chosen) rfl (made chosen) ((hmade chosen hmem _).mpr rfl)
          a ha (made a) ((hmade a ha _).mpr rfl)
      · intro horder found hget t ht c hc t' ht'
        obtain rfl : convertToApiSession chosen = found := Option.some.inj hget
        rw [(hmade chosen hmem t).mp ht, (hmade c hc t').mp ht']
        refine hiff.mpr (fun m hm hmax a ha hlt => ?_) c hc
        refine horder m hm (made m) ((hmade m hm _).mpr rfl) ?_ a ha (made a)
          ((hmade a ha _).mpr rfl) ((text_lt_iff (hmax a ha)).mp hlt)
        intro b hb t'' ht''
        rw [(hmade b hb t'').mp ht'']
        exact hmax b hb

end Newest

/-- In every run of requests whose clock is read at instants, a request that looks for the
    latest session of a project finds the one created last, exactly unless another session
    of the project reads later than that. -/
theorem newest_found_along (requests : List Task) (as : List (Nat × Env))
    (hclock : ∀ a ∈ as, ∃ t, a.2.now = nowRfc3339 t) :
    Along schedule (fun s a => ∀ projectDir,
      FindsNewest projectDir a.2 s.1.sessions ↔ InOrder projectDir a.2 s.1.sessions)
      (⟨∅, []⟩, requests) as := by
  refine along_of_guarded schedule (fun s a hstamped hnow => ?_)
    (fun s a hstamped _ projectDir => findsNewest_iff hstamped) as _ ?_
    (along_of_forall schedule hclock _)
  · cases htask : s.2[a.1]? with
    | none =>
        rw [schedule, stepAt_none step htask]
        exact hstamped
    | some task =>
        rw [schedule, stepAt_some step htask]
        exact stamped_step hstamped hnow task
  · intro id session hget
    rw [Std.ExtTreeMap.getElem?_empty] at hget
    cases hget

/-- Two agents of a project, registered a second apart, and a message for the project. -/
def twoAgents : List Task :=
  [.register ⟨"agent-2", "/web", none, "codex", 7⟩,
    .register ⟨"agent-1", "/web", none, "claude", 8⟩, .share ⟨"/web", none, "hello"⟩]

def quietAt (now : Instant) : Env := ⟨fun _ => .delivered, nowRfc3339 now⟩

def aSecondApart : List (Nat × Env) :=
  (0, quietAt newYear) :: List.replicate 3 (0, quietAt aSecondLater)

/-- The message is for the agent that was registered last. -/
theorem newest_found_along_twoAgents :
    accepted "agent-1" (run schedule (⟨∅, []⟩, twoAgents) aSecondApart).1 = ["hello"]
      ∧ accepted "agent-2" (run schedule (⟨∅, []⟩, twoAgents) aSecondApart).1 = []
      ∧ Along schedule (fun s a => ∀ projectDir,
          FindsNewest projectDir a.2 s.1.sessions ↔ InOrder projectDir a.2 s.1.sessions)
        (⟨∅, []⟩, twoAgents) aSecondApart := by
  refine ⟨by decide +kernel, by decide +kernel, newest_found_along twoAgents aSecondApart ?_⟩
  intro a ha
  rcases List.mem_cons.mp ha with rfl | ha
  · exact ⟨newYear, rfl⟩
  · rw [List.eq_of_mem_replicate ha]
    exact ⟨aSecondLater, rfl⟩

end DevstackAgentSessions
