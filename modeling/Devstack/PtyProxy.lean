import Devstack.AgentSessions

/-! # The pty proxy — what a wrapped agent reads

    `run_proxy` of `src/agent/pty_proxy.rs` beside the daemon.  Three tasks send to one
    channel: the one that reads the terminal, the one that polls the daemon for messages
    and the auto-share monitor; the writer task writes the chunks to the pty in the order
    of the channel.  Each send and each chunk is one step, so the tasks interleave in any
    way.  The poll task has no point of suspension between the answer of a poll and the
    last of its sends: an abort takes effect before or behind them.

    `agent_reads_once` follows a message from the request that is told it was queued
    through the queue of the session, the answer of a poll and the channel to the pty. -/

namespace DevstackPtyProxy

open DevstackMachine DevstackInterleaving DevstackConveyor DevstackAgentSessions

/-- `format_message_for_pty`. -/
def formatMessageForPty (message : String) : String := message ++ "\r"

/-- A chunk of the channel, by the task that sent it. -/
inductive Chunk where
  | typed (bytes : List UInt8)
  | message (text : String)
  | autoShare (text : String)
  deriving DecidableEq

/-- What the writer writes of a chunk. -/
def Chunk.bytes : Chunk → List UInt8
  | .typed bytes => bytes
  | .message text => (formatMessageForPty text).toUTF8.toList
  | .autoShare text => (formatMessageForPty text).toUTF8.toList

def Chunk.messages : Chunk → List String
  | .message text => [text]
  | _ => []

/-- Where `run_proxy` is: before its registration, with or without a poll task, behind the
    end of the wrapped command, behind its unregistration. -/
inductive Stage where
  | starting
  | polling
  | unregistered
  | ended (registered : Bool)
  | finished
  deriving DecidableEq

/-- `incoming` is what the poll task has been answered and has not sent yet; `writing` is
    whether the writer task runs; `output` is what came to the pty.  The chunks that were
    written whole are kept beside it. -/
structure Proxy where
  stage : Stage
  incoming : List String
  channel : List Chunk
  writing : Bool
  output : List UInt8
  written : List Chunk

def Proxy.start : Proxy := ⟨.starting, [], [], true, [], []⟩

/-- `tx.send`; once the writer has ended the channel is closed and sends are ignored. -/
def Proxy.send (p : Proxy) (chunk : Chunk) : Proxy :=
  if p.writing then { p with channel := p.channel ++ [chunk] } else p

/-- A chunk taken from the channel is written; or part of it was when the write failed,
    which ends the task. -/
def Proxy.wrote (p : Proxy) (chunk : Chunk) (rest : List Chunk) : Option Nat → Proxy
  | none =>
      { p with
        channel := rest
        output := p.output ++ chunk.bytes
        written := p.written ++ [chunk] }
  | some n => { p with channel := [], writing := false, output := p.output ++ chunk.bytes.take n }

/-- A turn of the writer task. -/
def Proxy.write (p : Proxy) (failed : Option Nat) : Proxy :=
  match p.channel with
  | [] => p
  | chunk :: rest => if p.writing then p.wrote chunk rest failed else p

/-- The daemon with its requests, and the proxy. -/
structure Sys where
  daemon : World × List Task
  proxy : Proxy

/-- What can happen.  Another client makes a request, or a request goes on; the proxy
    registers, polls (a call may fail before it reaches the daemon, or lose its answer on
    the way back), sends the next message of an answer; something is typed; the monitor
    shares; the writer writes; the wrapped command ends; the proxy unregisters. -/
inductive Action where
  | request (task : Task)
  | proceed (i : Nat) (env : Env)
  | register (env : Env) (request : AgentSessionRegisterRequest) (reached answered : Bool)
  | poll (env : Env) (answered : Bool)
  | send
  | typed (bytes : List UInt8)
  | autoShare (text : String)
  | write (failed : Option Nat)
  | ends
  | unregister (env : Env)

/-- The messages that a poll is answered with; none if the answer is an error. -/
def answerOf (env : Env) (sessions : Sessions) (agentId : String) : List String :=
  (pollMessages env sessions agentId).2.toOption.getD []

variable (agentId : String)

/-- A call of the proxy to the daemon. -/
def Sys.call (s : Sys) (env : Env) (task : Task) : Sys :=
  { s with daemon := ((step env s.daemon.1 task).1, s.daemon.2) }

/-- A chunk of the other tasks, which run from the registration to the end of the command. -/
def Sys.feed (s : Sys) (chunk : Chunk) : Sys :=
  if s.proxy.stage = .polling ∨ s.proxy.stage = .unregistered then
    { s with proxy := s.proxy.send chunk }
  else s

def sysStep (s : Sys) : Action → Sys
  | .request task => { s with daemon := (s.daemon.1, s.daemon.2 ++ [task]) }
  | .proceed i env => { s with daemon := schedule s.daemon (i, env) }
  | .register env request reached answered =>
      if s.proxy.stage = .starting then
        let called := if reached then s.call env (.register { request with agentId }) else s
        let stage := if reached && answered then .polling else .unregistered
        { called with proxy := { s.proxy with stage } }
      else s
  | .poll env answered =>
      if s.proxy.stage = .polling ∧ s.proxy.incoming = [] then
        let incoming := if answered then answerOf env s.daemon.1.sessions agentId else []
        { s.call env (.poll agentId) with proxy := { s.proxy with incoming } }
      else s
  | .send =>
      match s.proxy.incoming with
      | [] => s
      | text :: rest =>
          { s with proxy := { s.proxy.send (.message text) with incoming := rest } }
  | .typed bytes => s.feed (.typed bytes)
  | .autoShare text => s.feed (.autoShare text)
  | .write failed => { s with proxy := s.proxy.write failed }
  | .ends =>
      match s.proxy.stage with
      | .polling => { s with proxy := { s.proxy with stage := .ended true } }
      | .unregistered => { s with proxy := { s.proxy with stage := .ended false } }
      | _ => s
  | .unregister env =>
      match s.proxy.stage with
      | .ended registered =>
          if s.proxy.incoming = [] ∧ s.proxy.channel = [] then
            let called := if registered then s.call env (.unregister agentId) else s
            { called with proxy := { s.proxy with stage := .finished } }
          else s
      | _ => s

/-- The messages of the chunks. -/
def messagesOf (chunks : List Chunk) : List String := chunks.flatMap Chunk.messages

/-- What of the messages of an id is past the daemon: written, in the channel, answered. -/
def Proxy.received (p : Proxy) : List String :=
  messagesOf p.written ++ messagesOf p.channel ++ p.incoming

/-- From the requests that send to the session of the proxy to its pty. -/
def line : Conveyor Sys String where
  given s := accepted agentId s.daemon.1
  content s := s.proxy.received ++ pending agentId s.daemon.1.sessions

/-- Nothing breaks at a step: the process of the session lives, no other client polls the
    session or unregisters it, the answers of the daemon arrive and the writer does not
    fail.  The proxy itself unregisters only when it has ended. -/
def Unbroken (s : Sys) : Action → Prop
  | .request _ => True
  | .proceed i env =>
      Living agentId env s.daemon.1.sessions
        ∧ s.daemon.2[i]? ≠ some (.unregister agentId) ∧ s.daemon.2[i]? ≠ some (.poll agentId)
  | .register env _ _ _ => Living agentId env s.daemon.1.sessions
  | .poll env answered => Living agentId env s.daemon.1.sessions ∧ answered = true
  | .send => True
  | .typed _ => True
  | .autoShare _ => True
  | .write failed => failed = none
  | .ends => True
  | .unregister _ => False

instance (s : Sys) : ∀ a, Decidable (Unbroken agentId s a)
  | .request _ => inferInstanceAs (Decidable True)
  | .proceed _ _ => inferInstanceAs (Decidable (_ ∧ _ ∧ _))
  | .register env _ _ _ => inferInstanceAs (Decidable (Living agentId env s.daemon.1.sessions))
  | .poll _ _ => inferInstanceAs (Decidable (_ ∧ _))
  | .send => inferInstanceAs (Decidable True)
  | .typed _ => inferInstanceAs (Decidable True)
  | .autoShare _ => inferInstanceAs (Decidable True)
  | .write failed => inferInstanceAs (Decidable (failed = none))
  | .ends => inferInstanceAs (Decidable True)
  | .unregister _ => inferInstanceAs (Decidable False)

section Steps

variable {agentId} {env : Env}

/-- A step of a request hands messages over only if it polls. -/
theorem delivered_step (agentId : String) (env : Env) (w : World) (task : Task) :
    ∃ handed, delivered agentId (step env w task).1 = delivered agentId w ++ handed
      ∧ (task ≠ .poll agentId → handed = []) := by
  cases task with
  | register request => exact ⟨_, delivered_answer _ _, fun _ => rfl⟩
  | unregister id => exact ⟨_, delivered_answer _ _, fun _ => rfl⟩
  | post id message => exact ⟨_, delivered_answer _ _, fun _ => rfl⟩
  | poll id =>
      refine ⟨_, delivered_answer _ _, fun hne => ?_⟩
      have hid : id ≠ agentId := fun heq => hne (by rw [heq])
      cases (pollMessages env w.sessions id).2 with
      | error e => rfl
      | ok messages => exact if_neg hid
  | latest projectDir => exact ⟨_, delivered_answer _ _, fun _ => rfl⟩
  | share request =>
      rw [step]
      cases (findLatestForProject env w.sessions request.projectDir).2 with
      | none => exact ⟨_, delivered_answer _ _, fun _ => rfl⟩
      | some session => exact ⟨[], (List.append_nil _).symm, fun _ => rfl⟩
  | sharing session request => exact ⟨_, delivered_answer _ _, fun _ => rfl⟩

/-- What any step leaves in the queue was in it or was accepted by the step. -/
theorem pending_step_sublist (agentId : String) (env : Env) (w : World) (task : Task) :
    ∃ put, accepted agentId (step env w task).1 = accepted agentId w ++ put
      ∧ (pending agentId (step env w task).1.sessions).Sublist
        (pending agentId w.sessions ++ put) := by
  by_cases hunregister : task = .unregister agentId
  · rw [hunregister]
    refine ⟨[], accepted_answer _ _, ?_⟩
    show (pending agentId (unregisterSession env w.sessions agentId).1).Sublist _
    rw [pending_unregistered]
    exact List.nil_sublist _
  · obtain ⟨put, hgiven, hcontent⟩ := step_conveys env w hunregister
    obtain ⟨handed, hdelivered, -⟩ := delivered_step agentId env w task
    rw [hdelivered, List.append_assoc, List.append_assoc, List.append_right_inj] at hcontent
    refine ⟨put, hgiven, ?_⟩
    have hsuffix : (pending agentId (step env w task).1.sessions).Sublist
        (pending agentId (cleanupStaleSessionsInternal env w.sessions) ++ put) := by
      rw [← hcontent]
      exact List.sublist_append_right _ _
    exact hsuffix.trans
      ((pending_cleanup_sublist agentId env w.sessions).append (List.Sublist.refl put))

/-- A step that neither polls nor unregisters leaves everything in the queue of a living
    session. -/
theorem pending_step (w : World) {task : Task} (hliving : Living agentId env w.sessions)
    (hunregister : task ≠ .unregister agentId) (hpoll : task ≠ .poll agentId) :
    ∃ put, accepted agentId (step env w task).1 = accepted agentId w ++ put
      ∧ pending agentId (step env w task).1.sessions = pending agentId w.sessions ++ put := by
  obtain ⟨put, hgiven, hcontent⟩ := step_conveys env w hunregister
  obtain ⟨handed, hdelivered, hnone⟩ := delivered_step agentId env w task
  rw [hdelivered, hnone hpoll, List.append_nil, List.append_assoc, List.append_right_inj,
    pending_cleanup hliving] at hcontent
  exact ⟨put, hgiven, hcontent⟩

theorem messagesOf_concat (chunks : List Chunk) (chunk : Chunk) :
    messagesOf (chunks ++ [chunk]) = messagesOf chunks ++ chunk.messages := by
  simp [messagesOf]

theorem messagesOf_cons (chunk : Chunk) (chunks : List Chunk) :
    messagesOf (chunk :: chunks) = chunk.messages ++ messagesOf chunks := rfl

/-- A chunk that is no message goes into the channel unseen. -/
theorem received_send {p : Proxy} {chunk : Chunk} (h : chunk.messages = []) :
    (p.send chunk).received = p.received := by
  rw [Proxy.send]
  split
  · rw [Proxy.received, Proxy.received]
    show messagesOf p.written ++ messagesOf (p.channel ++ [chunk]) ++ p.incoming = _
    rw [messagesOf_concat, h, List.append_nil]
  · rfl

theorem received_wrote (p : Proxy) (chunk : Chunk) (rest : List Chunk) :
    (p.wrote chunk rest none).received
      = messagesOf p.written ++ messagesOf (chunk :: rest) ++ p.incoming := by
  show messagesOf (p.written ++ [chunk]) ++ messagesOf rest ++ p.incoming = _
  rw [messagesOf_concat, messagesOf_cons, ← List.append_assoc]

theorem received_failed (p : Proxy) (chunk : Chunk) (rest : List Chunk) (n : Nat) :
    ((p.wrote chunk rest (some n)).received).Sublist
      (messagesOf p.written ++ messagesOf (chunk :: rest) ++ p.incoming) := by
  show (messagesOf p.written ++ messagesOf [] ++ p.incoming).Sublist _
  exact ((List.Sublist.refl _).append (List.nil_sublist _)).append (List.Sublist.refl _)

theorem received_write_sublist (p : Proxy) (failed : Option Nat) :
    ((p.write failed).received).Sublist p.received := by
  rw [Proxy.write]
  cases hchannel : p.channel with
  | nil => exact List.Sublist.refl _
  | cons chunk rest =>
      show (Proxy.received (if p.writing then _ else _)).Sublist _
      by_cases hwriting : p.writing = true
      · rw [if_pos hwriting, Proxy.received.eq_def p, hchannel]
        cases failed with
        | none => exact received_wrote p chunk rest ▸ List.Sublist.refl _
        | some n => exact received_failed p chunk rest n
      · rw [if_neg hwriting]

theorem received_write (p : Proxy) : (p.write none).received = p.received := by
  rw [Proxy.write]
  cases hchannel : p.channel with
  | nil => rfl
  | cons chunk rest =>
      show Proxy.received (if p.writing then _ else _) = _
      by_cases hwriting : p.writing = true
      · rw [if_pos hwriting, received_wrote, Proxy.received, hchannel]
      · rw [if_neg hwriting]

/-- A message goes from the answer into the channel, unless the writer has ended. -/
theorem received_sent {p : Proxy} {text : String} {rest : List String}
    (hincoming : p.incoming = text :: rest) :
    (({ p.send (.message text) with incoming := rest } : Proxy).received).Sublist p.received
      ∧ (p.writing = true →
        ({ p.send (.message text) with incoming := rest } : Proxy).received = p.received) := by
  have hreceived : p.received = messagesOf p.written ++ messagesOf p.channel ++ text :: rest := by
    rw [Proxy.received, hincoming]
  rw [hreceived, Proxy.send]
  by_cases hwriting : p.writing = true
  · have heq : messagesOf p.written ++ messagesOf (p.channel ++ [.message text]) ++ rest
        = messagesOf p.written ++ messagesOf p.channel ++ text :: rest := by
      rw [messagesOf_concat, Chunk.messages]
      simp
    rw [if_pos hwriting]
    exact ⟨heq ▸ List.Sublist.refl _, fun _ => heq⟩
  · rw [if_neg hwriting]
    refine ⟨?_, fun h => absurd h hwriting⟩
    exact (List.Sublist.refl _).append (List.sublist_cons_self text rest)

/-- A poll of the proxy moves the queue into its hands. -/
theorem polled (w : World) :
    pending agentId (cleanupStaleSessionsInternal env w.sessions)
      = answerOf env w.sessions agentId
        ++ pending agentId (step env w (.poll agentId)).1.sessions := by
  rw [← pending_pollMessages agentId env w.sessions agentId,
    answerOf]
  show _ = _ ++ pending agentId (pollMessages env w.sessions agentId).1
  congr 1
  cases (pollMessages env w.sessions agentId).2 with
  | error e => rfl
  | ok messages => exact if_pos rfl

end Steps

-- ── the steps ─────────────────────────────────────────────────────────────────

section Line

variable {agentId}

/-- A step that touches only the proxy. -/
theorem line_lossy_proxy {s s' : Sys} (hdaemon : s'.daemon.1 = s.daemon.1)
    (hreceived : (s'.proxy.received).Sublist s.proxy.received) : (line agentId).Lossy s s' := by
  refine Conveyor.Lossy.of_sublist ?_ ?_
  · show accepted agentId s'.daemon.1 = _
    rw [hdaemon]
    rfl
  · show (s'.proxy.received ++ pending agentId s'.daemon.1.sessions).Sublist _
    rw [hdaemon]
    exact hreceived.append (List.Sublist.refl _)

theorem line_exact_proxy {s s' : Sys} (hdaemon : s'.daemon.1 = s.daemon.1)
    (hreceived : s'.proxy.received = s.proxy.received) : (line agentId).Exact s s' := by
  refine Conveyor.Exact.of_eq ?_ ?_
  · show accepted agentId s'.daemon.1 = _
    rw [hdaemon]
    rfl
  · show s'.proxy.received ++ pending agentId s'.daemon.1.sessions = _
    rw [hdaemon, hreceived]
    rfl

/-- A request that goes on at the daemon. -/
theorem line_lossy_step {s s' : Sys} (env : Env) (task : Task)
    (hdaemon : s'.daemon.1 = (step env s.daemon.1 task).1)
    (hreceived : s'.proxy.received = s.proxy.received) : (line agentId).Lossy s s' := by
  obtain ⟨put, hgiven, hsub⟩ := pending_step_sublist agentId env s.daemon.1 task
  refine ⟨put, ?_, ?_⟩
  · show accepted agentId s'.daemon.1 = _
    rw [hdaemon]
    exact hgiven
  · show (s'.proxy.received ++ pending agentId s'.daemon.1.sessions).Sublist _
    rw [hdaemon, hreceived]
    show List.Sublist _ (s.proxy.received ++ pending agentId s.daemon.1.sessions ++ put)
    rw [List.append_assoc]
    exact (List.Sublist.refl _).append hsub

theorem line_exact_step {s s' : Sys} (env : Env) (task : Task)
    (hdaemon : s'.daemon.1 = (step env s.daemon.1 task).1)
    (hreceived : s'.proxy.received = s.proxy.received)
    (hliving : Living agentId env s.daemon.1.sessions)
    (hunregister : task ≠ .unregister agentId) (hpoll : task ≠ .poll agentId) :
    (line agentId).Exact s s' := by
  obtain ⟨put, hgiven, heq⟩ := pending_step s.daemon.1 hliving hunregister hpoll
  refine ⟨put, ?_, ?_⟩
  · show accepted agentId s'.daemon.1 = _
    rw [hdaemon]
    exact hgiven
  · show s'.proxy.received ++ pending agentId s'.daemon.1.sessions = _
    rw [hdaemon, hreceived, heq, ← List.append_assoc]
    rfl

theorem received_answered {p : Proxy} (hincoming : p.incoming = []) (messages : List String) :
    ({ p with incoming := messages } : Proxy).received = p.received ++ messages := by
  rw [Proxy.received, Proxy.received, hincoming, List.append_nil]

/-- The proxy polls: what it is answered is what the queue held, if the answer arrives. -/
theorem line_poll {s : Sys} {env : Env} (answered : Bool) (hincoming : s.proxy.incoming = [])
    (hstage : s.proxy.stage = .polling) :
    (line agentId).Lossy s (sysStep agentId s (.poll env answered))
      ∧ (Living agentId env s.daemon.1.sessions → answered = true →
        (line agentId).Exact s (sysStep agentId s (.poll env answered))) := by
  have hgiven : accepted agentId (step env s.daemon.1 (.poll agentId)).1
      = accepted agentId s.daemon.1 := by
    show accepted agentId (s.daemon.1.answer _ _) = _
    rw [accepted_answer]
    cases (pollMessages env s.daemon.1.sessions agentId).2 <;> exact List.append_nil _
  have hcontent (messages : List String) :
      (line agentId).content
          { s.call env (.poll agentId) with proxy := { s.proxy with incoming := messages } }
        = s.proxy.received
          ++ (messages ++ pending agentId (step env s.daemon.1 (.poll agentId)).1.sessions) := by
    rw [← List.append_assoc, ← received_answered hincoming]
    rfl
  rw [sysStep, if_pos ⟨hstage, hincoming⟩]
  constructor
  · refine Conveyor.Lossy.of_sublist hgiven ?_
    rw [hcontent]
    refine (List.Sublist.refl s.proxy.received).append ?_
    refine List.Sublist.trans ?_ (pending_cleanup_sublist agentId env s.daemon.1.sessions)
    rw [polled]
    split
    · exact List.Sublist.refl _
    · exact List.sublist_append_right _ _
  · intro hliving hanswered
    refine Conveyor.Exact.of_eq hgiven ?_
    rw [hcontent, if_pos hanswered, ← polled, pending_cleanup hliving]
    rfl

theorem line_feed (s : Sys) {chunk : Chunk} (h : chunk.messages = []) :
    (line agentId).Exact s (s.feed chunk) := by
  rw [Sys.feed]
  split
  · exact line_exact_proxy rfl (received_send h)
  · exact line_exact_proxy rfl rfl

/-- No step makes up a message, repeats one or changes their order. -/
theorem line_lossy (s : Sys) (a : Action) : (line agentId).Lossy s (sysStep agentId s a) := by
  cases a with
  | request task => exact line_lossy_proxy rfl (List.Sublist.refl _)
  | proceed i env =>
      cases htask : s.daemon.2[i]? with
      | none =>
          have hsame : schedule s.daemon (i, env) = s.daemon := stepAt_none step htask
          refine line_lossy_proxy ?_ (List.Sublist.refl _)
          show (schedule s.daemon (i, env)).1 = _
          rw [hsame]
      | some task =>
          refine line_lossy_step env task ?_ rfl
          show (schedule s.daemon (i, env)).1 = _
          rw [schedule, stepAt_some step htask]
  | register env request reached answered =>
      rw [sysStep]
      by_cases hstage : s.proxy.stage = .starting
      · rw [if_pos hstage]
        cases reached with
        | true => exact line_lossy_step env (.register { request with agentId }) rfl rfl
        | false => exact line_lossy_proxy rfl (List.Sublist.refl _)
      · rw [if_neg hstage]
        exact line_lossy_proxy rfl (List.Sublist.refl _)
  | poll env answered =>
      by_cases hready : s.proxy.stage = .polling ∧ s.proxy.incoming = []
      · exact (line_poll answered hready.2 hready.1).1
      · rw [sysStep, if_neg hready]
        exact line_lossy_proxy rfl (List.Sublist.refl _)
  | send =>
      rw [sysStep]
      cases hincoming : s.proxy.incoming with
      | nil => exact line_lossy_proxy rfl (List.Sublist.refl _)
      | cons text rest => exact line_lossy_proxy rfl (received_sent hincoming).1
  | typed bytes => exact (line_feed s rfl).lossy
  | autoShare text => exact (line_feed s rfl).lossy
  | write failed => exact line_lossy_proxy rfl (received_write_sublist s.proxy failed)
  | ends =>
      rw [sysStep]
      cases s.proxy.stage <;> exact line_lossy_proxy rfl (List.Sublist.refl _)
  | unregister env =>
      rw [sysStep]
      cases hstage : s.proxy.stage with
      | ended registered =>
          show (line agentId).Lossy s (if _ then _ else _)
          split
          · cases registered with
            | true => exact line_lossy_step env (.unregister agentId) rfl rfl
            | false => exact line_lossy_proxy rfl (List.Sublist.refl _)
          · exact line_lossy_proxy rfl (List.Sublist.refl _)
      | starting => exact line_lossy_proxy rfl (List.Sublist.refl _)
      | polling => exact line_lossy_proxy rfl (List.Sublist.refl _)
      | unregistered => exact line_lossy_proxy rfl (List.Sublist.refl _)
      | finished => exact line_lossy_proxy rfl (List.Sublist.refl _)

/-- A step at which nothing breaks loses nothing. -/
theorem line_exact {s : Sys} {a : Action} (hwriting : s.proxy.writing = true)
    (h : Unbroken agentId s a) : (line agentId).Exact s (sysStep agentId s a) := by
  cases a with
  | request task => exact line_exact_proxy rfl rfl
  | proceed i env =>
      obtain ⟨hliving, hunregister, hpoll⟩ := h
      cases htask : s.daemon.2[i]? with
      | none =>
          have hsame : schedule s.daemon (i, env) = s.daemon := stepAt_none step htask
          refine line_exact_proxy ?_ rfl
          show (schedule s.daemon (i, env)).1 = _
          rw [hsame]
      | some task =>
          refine line_exact_step env task ?_ rfl hliving
            (fun heq => hunregister (heq ▸ htask)) (fun heq => hpoll (heq ▸ htask))
          show (schedule s.daemon (i, env)).1 = _
          rw [schedule, stepAt_some step htask]
  | register env request reached answered =>
      rw [sysStep]
      by_cases hstage : s.proxy.stage = .starting
      · rw [if_pos hstage]
        cases reached with
        | true =>
            exact line_exact_step env (.register { request with agentId })
              rfl rfl h (by simp) (by simp)
        | false => exact line_exact_proxy rfl rfl
      · rw [if_neg hstage]
        exact line_exact_proxy rfl rfl
  | poll env answered =>
      by_cases hready : s.proxy.stage = .polling ∧ s.proxy.incoming = []
      · exact (line_poll answered hready.2 hready.1).2 h.1 h.2
      · rw [sysStep, if_neg hready]
        exact line_exact_proxy rfl rfl
  | send =>
      rw [sysStep]
      cases hincoming : s.proxy.incoming with
      | nil => exact line_exact_proxy rfl rfl
      | cons text rest => exact line_exact_proxy rfl ((received_sent hincoming).2 hwriting)
  | typed bytes => exact line_feed s rfl
  | autoShare text => exact line_feed s rfl
  | write failed =>
      obtain rfl : failed = none := h
      exact line_exact_proxy rfl (received_write s.proxy)
  | ends =>
      rw [sysStep]
      cases s.proxy.stage <;> exact line_exact_proxy rfl rfl
  | unregister env => exact h.elim

end Line

-- ── the bytes of the pty ──────────────────────────────────────────────────────

/-- The chunks come to the pty whole; only the last, if its write failed, is cut. -/
def Whole (p : Proxy) : Prop :=
  ∃ torn, p.output = p.written.flatMap Chunk.bytes ++ torn ∧ (p.writing = true → torn = [])

theorem whole_write {p : Proxy} (h : Whole p) (failed : Option Nat) : Whole (p.write failed) := by
  obtain ⟨torn, houtput, htorn⟩ := h
  rw [Proxy.write]
  cases p.channel with
  | nil => exact ⟨torn, houtput, htorn⟩
  | cons chunk rest =>
      show Whole (if p.writing then _ else _)
      by_cases hwriting : p.writing = true
      · rw [if_pos hwriting]
        rw [htorn hwriting, List.append_nil] at houtput
        cases failed with
        | none =>
            refine ⟨[], ?_, fun _ => rfl⟩
            show p.output ++ chunk.bytes = (p.written ++ [chunk]).flatMap Chunk.bytes ++ []
            rw [houtput, List.append_nil, List.flatMap_append, List.flatMap_singleton]
        | some n =>
            refine ⟨chunk.bytes.take n, ?_, fun hwriting => ?_⟩
            · show p.output ++ chunk.bytes.take n = _
              rw [houtput]
              rfl
            · cases hwriting
      · rw [if_neg hwriting]
        exact ⟨torn, houtput, htorn⟩

/-- What was written, and whether the writer runs. -/
def Proxy.pty (p : Proxy) : List UInt8 × List Chunk × Bool := (p.output, p.written, p.writing)

theorem Whole.congr {p p' : Proxy} (h : Whole p) (heq : p'.pty = p.pty) : Whole p' := by
  simp only [Proxy.pty, Prod.mk.injEq] at heq
  obtain ⟨houtput, hwritten, hwriting⟩ := heq
  rw [Whole, houtput, hwritten, hwriting]
  exact h

theorem pty_send (p : Proxy) (chunk : Chunk) : (p.send chunk).pty = p.pty := by
  rw [Proxy.send]
  split <;> rfl

theorem pty_feed (s : Sys) (chunk : Chunk) : (s.feed chunk).proxy.pty = s.proxy.pty := by
  rw [Sys.feed]
  split
  · exact pty_send s.proxy chunk
  · rfl

/-- Only the writer writes. -/
theorem pty_step (s : Sys) {a : Action} (h : ∀ failed, a ≠ .write failed) :
    (sysStep agentId s a).proxy.pty = s.proxy.pty := by
  cases a with
  | request task => rfl
  | proceed i env => rfl
  | register env request reached answered =>
      rw [sysStep]
      split
      · cases reached <;> rfl
      · rfl
  | poll env answered =>
      rw [sysStep]
      split <;> rfl
  | send =>
      rw [sysStep]
      cases s.proxy.incoming with
      | nil => rfl
      | cons text rest => exact pty_send s.proxy (.message text)
  | typed bytes => exact pty_feed s (.typed bytes)
  | autoShare text => exact pty_feed s (.autoShare text)
  | write failed => exact absurd rfl (h failed)
  | ends =>
      rw [sysStep]
      cases s.proxy.stage <;> rfl
  | unregister env =>
      rw [sysStep]
      cases s.proxy.stage with
      | ended registered =>
          show Proxy.pty (Sys.proxy (if _ then _ else _)) = _
          split
          · cases registered <;> rfl
          · rfl
      | starting => rfl
      | polling => rfl
      | unregistered => rfl
      | finished => rfl

theorem whole_step (s : Sys) (a : Action) (h : Whole s.proxy) :
    Whole (sysStep agentId s a).proxy := by
  by_cases hwrite : ∃ failed, a = .write failed
  · obtain ⟨failed, rfl⟩ := hwrite
    exact whole_write h failed
  · exact h.congr (pty_step agentId s (fun failed heq => hwrite ⟨failed, heq⟩))

theorem writing_write {p : Proxy} (h : p.writing = true) : (p.write none).writing = true := by
  rw [Proxy.write]
  cases p.channel with
  | nil => exact h
  | cons chunk rest =>
      show Proxy.writing (if _ then _ else _) = true
      rw [if_pos h]
      exact h

theorem writing_step (s : Sys) (a : Action) (hwriting : s.proxy.writing = true)
    (h : Unbroken agentId s a) : (sysStep agentId s a).proxy.writing = true := by
  by_cases hwrite : ∃ failed, a = .write failed
  · obtain ⟨failed, rfl⟩ := hwrite
    obtain rfl : failed = none := h
    exact writing_write hwriting
  · have heq := pty_step agentId s (fun failed heq => hwrite ⟨failed, heq⟩)
    exact (congrArg (·.2.2) heq).trans hwriting

-- ── messages come to the pty once ─────────────────────────────────────────────

/-- Of the messages accepted for the agent, those that its proxy wrote, has in its channel or
    was handed, followed by those still queued, are there in the order in which they were
    accepted, each at most once; all of them as long as nothing breaks.  To the pty they
    come as whole chunks, each the text and a carriage return; only what a failing write
    leaves behind is cut. -/
theorem agent_reads_once (requests : List Task) (as : List Action) :
    let s := run (sysStep agentId) ⟨(⟨∅, []⟩, requests), Proxy.start⟩ as
    (s.proxy.received ++ pending agentId s.daemon.1.sessions).Sublist (accepted agentId s.daemon.1)
      ∧ (Along (sysStep agentId) (Unbroken agentId) ⟨(⟨∅, []⟩, requests), Proxy.start⟩ as →
        s.proxy.received ++ pending agentId s.daemon.1.sessions = accepted agentId s.daemon.1)
      ∧ Whole s.proxy := by
  have hpending : pending agentId (∅ : Sessions) = [] := by
    rw [pending, Std.ExtTreeMap.getElem?_empty]
    rfl
  have hcontent : (line agentId).content ⟨(⟨∅, []⟩, requests), Proxy.start⟩ = [] := by
    show Proxy.start.received ++ pending agentId (∅ : Sessions) = []
    rw [hpending]
    rfl
  refine ⟨?_, fun hunbroken => ?_, ?_⟩
  · exact (Conveyor.run_lossy line_lossy as _).of_empty rfl hcontent
  · have hgood : Along (sysStep agentId)
        (fun s a => s.proxy.writing = true ∧ Unbroken agentId s a)
        ⟨(⟨∅, []⟩, requests), Proxy.start⟩ as :=
      along_of_guarded (sysStep agentId) (writing_step agentId)
        (fun s a hwriting h => ⟨hwriting, h⟩) as _ rfl hunbroken
    exact (Conveyor.run_exact (fun s a h => line_exact h.1 h.2) as _ hgood).of_empty rfl hcontent
  · exact run_invariant (sysStep agentId) (whole_step agentId) as _ ⟨[], rfl, fun _ => rfl⟩

/-- A message is queued, polled and written while something is typed. -/
def oneMessage : List Action :=
  [.register quiet ⟨"", "/web", none, "codex", 7⟩ true true, .request (.post "agent-1" "hello"),
    .proceed 0 quiet, .poll quiet true, .typed [121], .send, .write none, .write none]

theorem agent_reads_once_hello :
    let s := run (sysStep "agent-1") ⟨(⟨∅, []⟩, []), Proxy.start⟩ oneMessage
    s.proxy.written = [.typed [121], .message "hello"]
      ∧ s.proxy.received ++ pending "agent-1" s.daemon.1.sessions
        = accepted "agent-1" s.daemon.1 :=
  ⟨by decide +kernel, (agent_reads_once "agent-1" [] oneMessage).2.1 (by decide +kernel)⟩

end DevstackPtyProxy
